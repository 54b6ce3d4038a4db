import CentralOps.Lib.Relate
import CentralOps.Normalize.CompileRelation
import CentralOps.Normalize.Engine

namespace CentralOps
set_option autoImplicit true

open Proc

/-- What the engine does on one store of objects it does on the other, as long as it writes only
where `W` allows. -/
structure ObjectsSim (S : Objects σ ν) (S' : Objects σ' ν') (L : σ → σ' → Prop)
    (V : ν → ν' → Prop) (W : σ → ν → List String → Prop) : Prop where
  scalar : ∀ x, V (S.scalar x) (S'.scalar x)
  shape : ∀ {s s' v v'}, L s s' → V v v' → Shape.Rel V (S.shape s v) (S'.shape s' v')
  make : ∀ {s s' c c'}, L s s' → Shape.Rel V c c' →
    V (S.make c s).1 (S'.make c' s').1 ∧ L (S.make c s).2 (S'.make c' s').2
  setPath : ∀ {s s' t t' v v' path}, L s s' → V t t' → V v v' → W s t path →
    L (S.setPath t path v s) (S'.setPath t' path v' s')
  same : ∀ {v v' w w'}, V v v' → V w w' → S.same v w = S'.same v' w'
  search : ∀ {s s' v v'} (expr : String), L s s' → V v v' →
    Except.Rel V (S.search expr v s).1 (S'.search expr v' s').1 ∧
      L (S.search expr v s).2 (S'.search expr v' s').2

mutual
theorem ObjectsSim.load (sim : ObjectsSim S S' L V W) : (j : Json) → ∀ {s s'}, L s s' →
    V (S.load j s).1 (S'.load j s').1 ∧ L (S.load j s).2 (S'.load j s').2
  | .null, _, _, hs => ⟨sim.scalar _, hs⟩
  | .bool _, _, _, hs => ⟨sim.scalar _, hs⟩
  | .int _, _, _, hs => ⟨sim.scalar _, hs⟩
  | .float _, _, _, hs => ⟨sim.scalar _, hs⟩
  | .str _, _, _, hs => ⟨sim.scalar _, hs⟩
  | .list xs, _, _, hs => sim.make (sim.loadList xs hs).2 (.list (sim.loadList xs hs).1)
  | .obj o, _, _, hs => sim.make (sim.loadFields o hs).2 (.dict (sim.loadFields o hs).1)

theorem ObjectsSim.loadList (sim : ObjectsSim S S' L V W) : (xs : List Json) → ∀ {s s'}, L s s' →
    List.Forall₂ V (S.loadList xs s).1 (S'.loadList xs s').1 ∧
      L (S.loadList xs s).2 (S'.loadList xs s').2
  | [], _, _, hs => ⟨.nil, hs⟩
  | x :: xs, _, _, hs =>
    ⟨.cons (sim.load x hs).1 (sim.loadList xs (sim.load x hs).2).1,
      (sim.loadList xs (sim.load x hs).2).2⟩

theorem ObjectsSim.loadFields (sim : ObjectsSim S S' L V W) : (o : Obj) → ∀ {s s'}, L s s' →
    List.Forall₂ (FieldRel V) (S.loadFields o s).1 (S'.loadFields o s').1 ∧
      L (S.loadFields o s).2 (S'.loadFields o s').2
  | [], _, _, hs => ⟨.nil, hs⟩
  | (_, x) :: o, _, _, hs =>
    ⟨.cons ⟨rfl, (sim.load x hs).1⟩ (sim.loadFields o (sim.load x hs).2).1,
      (sim.loadFields o (sim.load x hs).2).2⟩
end

namespace ObjectsSim

variable {σ σ' ν ν' : Type} {S : Objects σ ν} {S' : Objects σ' ν'} {L : σ → σ' → Prop}
  {V : ν → ν' → Prop} {W : σ → ν → List String → Prop}
  (sim : ObjectsSim S S' L V W) (rt : MappingRuntime) {s : σ} {s' : σ'} {v : ν} {v' : ν'}

include sim

theorem null : V (S.scalar .null) (S'.scalar .null) := sim.scalar .null

theorem isNone (hs : L s s') (hv : V v v') : S.isNone s v = S'.isNone s' v' := by
  have h := sim.shape hs hv
  unfold Objects.isNone
  generalize S.shape s v = c at h
  generalize S'.shape s' v' = c' at h
  cases h with
  | scalar x => cases x <;> rfl
  | list hm => rfl
  | dict hm => rfl

theorem look (hs : L s s') (hv : V v v') :
    Ending.Rel L (Shape.Rel V) (S.look v s) (S'.look v' s') := .ok (sim.shape hs hv) hs

theorem new (hs : L s s') (hc : Shape.Rel V c c') :
    Ending.Rel L V (S.new c s) (S'.new c' s') :=
  .ok (sim.make hs hc).1 (sim.make hs hc).2

theorem write (hs : L s s') (ht : V t t') (hv : V v v') (hw : W s t path) :
    Ending.Rel L (fun _ _ => True) (S.write t path v s) (S'.write t' path v' s') :=
  .ok trivial (sim.setPath hs ht hv hw)

theorem repr (hs : L s s') (fuel : Nat) :
    ∀ {seen seen' v v'}, List.Forall₂ V seen seen' → V v v' →
      S.repr rt s fuel seen v = S'.repr rt s' fuel seen' v' := by
  have step : ∀ {inner : List ν → ν → Except PyError String}
      {inner' : List ν' → ν' → Except PyError String},
      (∀ {seen seen' v v'}, List.Forall₂ V seen seen' → V v v' →
        inner seen v = inner' seen' v') →
      ∀ {seen seen' v v'}, List.Forall₂ V seen seen' → V v v' →
        S.reprStep rt inner s seen v = S'.reprStep rt inner' s' seen' v' := by
    intro inner inner' hinner seen seen' v v' hseen hv
    have hsame := any_rel (fun a b hab => sim.same hv hab) hseen
    have h := sim.shape hs hv
    unfold Objects.reprStep
    generalize S.shape s v = c at h
    generalize S'.shape s' v' = c' at h
    cases h with
    | scalar x => rfl
    | list hm =>
      dsimp only
      rw [hsame, mapM_eq (fun a b hab => hinner (.cons hv hseen) hab) hm]
    | dict hm =>
      dsimp only
      rw [hsame, mapM_eq (fun p q hpq => ?_) hm]
      rw [hinner (.cons hv hseen) hpq.2, hpq.1]
  induction fuel with
  | zero => exact step fun _ _ => rfl
  | succ fuel ih => exact step ih

theorem str (hs : L s s') (hv : V v v') : S.str rt s v = S'.str rt s' v' := by
  have h := sim.shape hs hv
  have hrepr := sim.repr rt hs rt.stackLimit .nil hv
  unfold Objects.str
  generalize S.shape s v = c at h
  generalize S'.shape s' v' = c' at h
  cases h with
  | list hm => exact hrepr
  | dict hm => exact hrepr
  | scalar x =>
    cases x with
    | null => exact hrepr
    | bool b => exact hrepr
    | int n => exact hrepr
    | float x => exact hrepr
    | str t => rfl

omit sim in
theorem allEqual_rel {A : α → β → Prop} {B : γ → δ → Prop} {f : α → γ → Except PyError Bool}
    {g : β → δ → Except PyError Bool} (hfg : ∀ a b c d, A a b → B c d → f a c = g b d)
    (hab : List.Forall₂ A as bs) :
    ∀ {cs ds}, List.Forall₂ B cs ds →
      Objects.allEqual f as cs = Objects.allEqual g bs ds := by
  induction hab with
  | nil => intro cs ds hcd; cases hcd <;> rfl
  | cons hab _ ih =>
    intro cs ds hcd
    cases hcd with
    | nil => rfl
    | cons hcd hrest => simp only [Objects.allEqual, hfg _ _ _ _ hab hcd, ih hrest]

theorem eq (hs : L s s') (fuel : Nat) :
    ∀ {v v' w w'}, V v v' → V w w' → S.eq s fuel v w = S'.eq s' fuel v' w' := by
  have step : ∀ {inner : ν → ν → Except PyError Bool} {inner' : ν' → ν' → Except PyError Bool},
      (∀ {v v' w w'}, V v v' → V w w' → inner v w = inner' v' w') →
      ∀ {v v' w w'}, V v v' → V w w' →
        S.eqStep inner s v w = S'.eqStep inner' s' v' w' := by
    intro inner inner' hinner v v' w w' hv hw
    have h := sim.shape hs hv
    have h' := sim.shape hs hw
    unfold Objects.eqStep
    generalize S.shape s v = c at h
    generalize S'.shape s' v' = c' at h
    generalize S.shape s w = d at h'
    generalize S'.shape s' w' = d' at h'
    cases h with
    | scalar x => cases h' <;> rfl
    | list hm =>
      cases h' with
      | scalar y => rfl
      | dict hm' => rfl
      | list hm' =>
        dsimp only
        rw [hm.length_eq, hm'.length_eq,
          allEqual_rel (fun a b c d hab hcd => by rw [sim.same hab hcd, hinner hab hcd]) hm hm']
    | dict hm =>
      cases h' with
      | scalar y => rfl
      | list hm' => rfl
      | dict hm' =>
        dsimp only
        rw [hm.length_eq, hm'.length_eq, allEqual_rel (fun p q c d hpq _ => ?_) hm hm']
        have hlook := lookup_rel hm' p.1
        rw [hpq.1] at hlook ⊢
        generalize List.lookup q.1 _ = x at hlook
        generalize List.lookup q.1 _ = y at hlook
        cases hlook with
        | none => rfl
        | some hab => dsimp only; rw [sim.same hpq.2 hab, hinner hpq.2 hab]
  induction fuel with
  | zero => exact step fun _ _ => rfl
  | succ fuel ih => exact step ih

theorem isIn (hs : L s s') (fuel : Nat) (hv : V v v') (h : List.Forall₂ V ws ws') :
    S.isIn s fuel v ws = S'.isIn s' fuel v' ws' := by
  induction h with
  | nil => rfl
  | cons hw _ ih =>
    simp only [Objects.isIn, sim.same hv hw, sim.eq hs fuel hv hw, ih]

omit sim in
theorem liftExc (hs : L s s') (r : Except Exc α) :
    Ending.Rel L Eq ((liftExc r : Proc σ Exc α) s) ((CentralOps.liftExc r : Proc σ' Exc α) s') := by
  cases r with
  | ok a => exact .ok rfl hs
  | error e => exact .raised e hs

omit sim in
theorem refuse {Q : α → β → Prop} (hs : L s s') (msg : String) :
    Ending.Rel L Q ((CentralOps.liftExc (operatorError msg) : Proc σ Exc α) s)
      ((CentralOps.liftExc (operatorError msg) : Proc σ' Exc β) s') := .raised _ hs

theorem scalarCast {f : Shape Scalar ν → Except Exc Scalar}
    {f' : Shape Scalar ν' → Except Exc Scalar}
    (hf : ∀ c c', Shape.Rel V c c' → f c = f' c') (hs : L s s') (hv : V v v') :
    Ending.Rel L V (scalarCast S f v s) (CentralOps.scalarCast S' f' v' s') := by
  refine rel_bind (sim.look hs hv) fun c c' t t' hc ht => ?_
  rw [hf c c' hc]
  refine rel_bind (liftExc ht _) fun x y u u' hxy hu => ?_
  obtain rfl := hxy
  exact rel_pure hu (sim.scalar x)

theorem toStr (hs : L s s') (hv : V v v') :
    Ending.Rel L V (toStr S rt v s) (CentralOps.toStr S' rt v' s') := by
  have htext : ∀ {t t'}, L t t' → Ending.Rel L V
      ((do
        let s ← Proc.get
        let text ← CentralOps.liftExc (uncaught (S.str rt s v))
        pure (S.scalar (.str text)) : Proc σ Exc ν) t)
      ((do
        let s ← Proc.get
        let text ← CentralOps.liftExc (uncaught (S'.str rt s v'))
        pure (S'.scalar (.str text)) : Proc σ' Exc ν') t') := by
    intro t t' ht
    change Ending.Rel L V ((CentralOps.liftExc (uncaught (S.str rt t v)) >>= _) t)
      ((CentralOps.liftExc (uncaught (S'.str rt t' v')) >>= _) t')
    rw [sim.str rt ht hv]
    refine rel_bind (liftExc ht _) fun x y u u' hxy hu => ?_
    obtain rfl := hxy
    exact rel_pure hu (sim.scalar _)
  refine rel_bind (sim.look hs hv) fun c c' t t' hc ht => ?_
  cases hc with
  | list hm => exact htext ht
  | dict hm => exact htext ht
  | scalar x =>
    cases x with
    | null => exact refuse ht _
    | bool b => exact htext ht
    | int n => exact htext ht
    | float x => exact htext ht
    | str t => exact htext ht

theorem toArray (hs : L s s') (hv : V v v') :
    Ending.Rel L V (toArray S v s) (CentralOps.toArray S' v' s') := by
  have hone : ∀ {t t'}, L t t' → Ending.Rel L V (S.new (.list [v]) t) (S'.new (.list [v']) t') :=
    fun ht => sim.new ht (.list (.cons hv .nil))
  refine rel_bind (sim.look hs hv) fun c c' t t' hc ht => ?_
  cases hc with
  | list hm => exact rel_pure ht hv
  | dict hm => exact hone ht
  | scalar x =>
    cases x with
    | null => exact sim.new ht (.list .nil)
    | bool b => exact hone ht
    | int n => exact hone ht
    | float x => exact hone ht
    | str t => exact hone ht

theorem dedupItems (hs : L s s') (h : List.Forall₂ V xs ys) :
    ∀ seen, List.Forall₂ V (dedupItems S s seen xs) (CentralOps.dedupItems S' s' seen ys) := by
  induction h with
  | nil => intro seen; exact .nil
  | cons hxy _ ih =>
    intro seen
    have hc := sim.shape hs hxy
    unfold CentralOps.dedupItems
    generalize S.shape s _ = c at hc
    generalize S'.shape s' _ = c' at hc
    cases hc with
    | list hm => exact .cons hxy (ih seen)
    | dict hm => exact .cons hxy (ih seen)
    | scalar x =>
      dsimp only
      split
      · exact ih seen
      · exact .cons hxy (ih _)

theorem dedup (hs : L s s') (hv : V v v') :
    Ending.Rel L V (dedup S v s) (CentralOps.dedup S' v' s') := by
  refine rel_bind (sim.look hs hv) fun c c' t t' hc ht => ?_
  cases hc with
  | list hm => exact sim.new ht (.list (sim.dedupItems ht hm []))
  | dict hm => exact refuse ht _
  | scalar x =>
    cases x with
    | null => exact rel_pure ht sim.null
    | bool b => exact refuse ht _
    | int n => exact refuse ht _
    | float x => exact refuse ht _
    | str t => exact refuse ht _

theorem mitreText (hs : L s s') (idx : Nat) (h : List.Forall₂ (FieldRel V) fs gs) (key : String) :
    Ending.Rel L Eq (mitreText S rt idx fs key s) (CentralOps.mitreText S' rt idx gs key s') := by
  have hv : V ((fs.lookup key).getD (S.scalar .null)) ((gs.lookup key).getD (S'.scalar .null)) :=
    getD_rel (lookup_rel h key) sim.null
  have hrefuse : Ending.Rel L Eq
      (mitreText.refuse S rt idx key ((fs.lookup key).getD (S.scalar .null)) s s)
      (mitreText.refuse S' rt idx key ((gs.lookup key).getD (S'.scalar .null)) s' s') := by
    unfold mitreText.refuse
    rw [sim.repr rt hs rt.stackLimit .nil hv]
    refine rel_bind (liftExc hs _) fun x y u u' hxy hu => ?_
    obtain rfl := hxy
    exact refuse hu _
  unfold CentralOps.mitreText
  rw [get_bind_apply, get_bind_apply, asStr_rel (fun _ _ => sim.shape hs) hv]
  cases CentralOps.asStr (S'.shape s') ((gs.lookup key).getD (S'.scalar .null)) with
  | none => exact hrefuse
  | some t =>
    dsimp only
    by_cases ht : t = ""
    · rw [if_pos ht, if_pos ht]
      exact hrefuse
    · rw [if_neg ht, if_neg ht]
      exact rel_pure hs rfl

theorem mitreTactic (hs : L s s') (idx : Nat) (hv : V v v') :
    Ending.Rel L (Option.Rel V) (mitreTactic S rt idx v s)
      (CentralOps.mitreTactic S' rt idx v' s') := by
  refine rel_bind (sim.look hs hv) fun c c' t t' hc ht => ?_
  cases hc with
  | list hm => exact refuse ht _
  | scalar x =>
    cases x with
    | null => exact rel_pure ht .none
    | bool b => exact refuse ht _
    | int n => exact refuse ht _
    | float x => exact refuse ht _
    | str t => exact refuse ht _
  | dict hm =>
    refine rel_bind (sim.mitreText rt ht idx hm "id") fun uid _ t t' huid ht => ?_
    refine rel_bind (sim.mitreText rt ht idx hm "name") fun name _ t t' hname ht => ?_
    obtain rfl := huid
    obtain rfl := hname
    have hentry := List.Forall₂.cons (field_rel "uid" (sim.scalar (.str uid)))
      (.cons (field_rel "name" (sim.scalar (.str name))) .nil)
    refine rel_bind (sim.new ht (.dict hentry)) fun e e' t t' he ht => ?_
    refine rel_bind (sim.new ht (.list (.cons he .nil))) fun l l' t t' hl ht => ?_
    have hout := List.Forall₂.cons (field_rel "tactics" hl)
      (.cons (field_rel "version" (sim.scalar (.str "16.1"))) .nil)
    refine rel_bind (sim.new ht (.dict hout)) fun o o' t t' ho ht => ?_
    exact rel_pure ht (.some ho)

theorem mitreItem (hs : L s s') (idx : Nat) (hv : V v v') :
    Ending.Rel L (Option.Rel V) (mitreItem S rt idx v s)
      (CentralOps.mitreItem S' rt idx v' s') := by
  refine rel_bind (sim.look hs hv) fun c c' t t' hc ht => ?_
  cases hc with
  | list hm => exact refuse ht _
  | scalar x => cases x <;> exact refuse ht _
  | @dict fs gs hm =>
    have hlook := lookup_rel hm "tactic"
    dsimp only
    generalize fs.lookup "tactic" = x at hlook
    generalize gs.lookup "tactic" = y at hlook
    cases hlook with
    | none => exact refuse ht _
    | some hv => exact sim.mitreTactic rt ht idx hv

theorem mitreTacticToOcsf (hs : L s s') (hv : V v v') :
    Ending.Rel L V (mitreTacticToOcsf S rt v s) (CentralOps.mitreTacticToOcsf S' rt v' s') := by
  refine rel_bind (sim.look hs hv) fun c c' t t' hc ht => ?_
  cases hc with
  | dict hm => exact refuse ht _
  | scalar x =>
    cases x with
    | null => exact rel_pure ht sim.null
    | bool b => exact refuse ht _
    | int n => exact refuse ht _
    | float x => exact refuse ht _
    | str t => exact refuse ht _
  | list hm =>
    have hitem (p : ν × Nat) (q : ν' × Nat) (t : σ) (t' : σ') (hpq : p.2 = q.2 ∧ V p.1 q.1)
        (ht : L t t') : Ending.Rel L (Option.Rel V) (CentralOps.mitreItem S rt p.2 p.1 t)
          (CentralOps.mitreItem S' rt q.2 q.1 t') := by
      rw [hpq.1]
      exact sim.mitreItem rt ht q.2 hpq.2
    refine rel_bind (rel_each hitem (zipIdx_rel hm 0) t t' ht) fun outs outs' t t' houts ht => ?_
    exact sim.new ht (.list (List.rel_filterMap (fun _ _ h => h) houts))

omit sim in
theorem shape_eq {f : Shape Scalar ν → α} {f' : Shape Scalar ν' → α}
    (hscalar : ∀ x, f (.scalar x) = f' (.scalar x)) (hlist : ∀ xs ys, f (.list xs) = f' (.list ys))
    (hdict : ∀ fs gs, f (.dict fs) = f' (.dict gs)) (c : Shape Scalar ν) (c' : Shape Scalar ν')
    (h : Shape.Rel V c c') : f c = f' c' := by
  cases h with
  | scalar x => exact hscalar x
  | list hm => exact hlist _ _
  | dict hm => exact hdict _ _

theorem run (cast : TypeCast) (hs : L s s') (hv : V v v') :
    Ending.Rel L V (cast.run S rt v s) (cast.run S' rt v' s') := by
  cases cast with
  | isoToEpoch =>
    exact sim.scalarCast (shape_eq (fun x => by cases x <;> rfl) (fun _ _ => rfl)
      (fun _ _ => rfl)) hs hv
  | epochToIso =>
    exact sim.scalarCast (shape_eq (fun x => by cases x <;> rfl) (fun _ _ => rfl)
      (fun _ _ => rfl)) hs hv
  | toInt =>
    exact sim.scalarCast (shape_eq (fun x => by cases x <;> rfl) (fun _ _ => rfl)
      (fun _ _ => rfl)) hs hv
  | toBool =>
    exact sim.scalarCast (shape_eq (fun x => by cases x <;> rfl) (fun _ _ => rfl)
      (fun _ _ => rfl)) hs hv
  | scoreToPercent =>
    exact sim.scalarCast (shape_eq (fun x => by cases x <;> rfl) (fun _ _ => rfl)
      (fun _ _ => rfl)) hs hv
  | lowercase =>
    exact sim.scalarCast (shape_eq (fun x => by cases x <;> rfl) (fun _ _ => rfl)
      (fun _ _ => rfl)) hs hv
  | uppercase =>
    exact sim.scalarCast (shape_eq (fun x => by cases x <;> rfl) (fun _ _ => rfl)
      (fun _ _ => rfl)) hs hv
  | trim =>
    exact sim.scalarCast (shape_eq (fun x => by cases x <;> rfl) (fun _ _ => rfl)
      (fun _ _ => rfl)) hs hv
  | toStr => exact sim.toStr rt hs hv
  | toArray => exact sim.toArray hs hv
  | dedup => exact sim.dedup hs hv
  | mitreTacticToOcsf => exact sim.mitreTacticToOcsf rt hs hv

theorem applyTypeCast (name : String) (hs : L s s') (hv : V v v') :
    Ending.Rel L V (applyTypeCast S rt v name s) (CentralOps.applyTypeCast S' rt v' name s') := by
  unfold CentralOps.applyTypeCast
  cases typeCasts.lookup name with
  | none => exact refuse hs _
  | some cast => exact sim.run rt cast hs hv

theorem valueMapHit (hs : L s s') (hv : V v v') (h : List.Forall₂ (FieldRel V) fs gs) :
    Ending.Rel L (Option.Rel V) (valueMapHit S rt v fs s)
      (CentralOps.valueMapHit S' rt v' gs s') := by
  have hlook : ∀ {t t'} (x : Scalar), L t t' → Ending.Rel L (Option.Rel V)
      ((do
        let key ← CentralOps.liftExc (uncaught (x.repr rt))
        pure (fs.lookup key) : Proc σ Exc (Option ν)) t)
      ((do
        let key ← CentralOps.liftExc (uncaught (x.repr rt))
        pure (gs.lookup key) : Proc σ' Exc (Option ν')) t') := by
    intro t t' x ht
    refine rel_bind (liftExc ht _) fun k _ u u' hk hu => ?_
    obtain rfl := hk
    exact rel_pure hu (lookup_rel h k)
  refine rel_bind (sim.look hs hv) fun c c' t t' hc ht => ?_
  cases hc with
  | list hm => exact rel_raise ht _
  | dict hm => exact rel_raise ht _
  | scalar x =>
    cases x with
    | null => exact rel_pure ht .none
    | bool b => exact hlook _ ht
    | int n => exact hlook _ ht
    | float x => exact hlook _ ht
    | str t =>
      refine rel_pure ht (find_map_rel (fun p q hpq => ?_) (fun p q hpq => hpq.2) h)
      rw [hpq.1]

theorem getField (hs : L s s') (hv : V v v') (k : String) :
    V (getField S s v k) (CentralOps.getField S' s' v' k) := by
  have hc := sim.shape hs hv
  unfold CentralOps.getField
  generalize S.shape s v = c at hc
  generalize S'.shape s' v' = c' at hc
  cases hc with
  | scalar x => exact sim.null
  | list hm => exact sim.null
  | dict hm => exact getD_rel (lookup_rel hm k) sim.null

theorem dotSearch (hs : L s s') (keys : List String) :
    ∀ {v v'}, V v v' → V (dotSearch S s keys v) (CentralOps.dotSearch S' s' keys v') := by
  induction keys with
  | nil => intro v v' hv; exact hv
  | cons k keys ih => intro v v' hv; exact ih (sim.getField hs hv k)

theorem sourceSearch (src : Source) (hs : L s s') (hv : V v v') :
    Ending.Rel L V (src.search S v s) (src.search S' v' s') := by
  cases src with
  | dotPath keys => exact .ok (sim.dotSearch hs keys hv) hs
  | jmespath expr =>
    obtain ⟨hr, hl⟩ := sim.search expr hs hv
    unfold Source.search
    dsimp only
    generalize S.search expr v s = found at hr hl ⊢
    generalize S'.search expr v' s' = found' at hr hl ⊢
    obtain ⟨r, t⟩ := found
    obtain ⟨r', t'⟩ := found'
    cases hr with
    | ok hw => exact .ok hw hl
    | error e => exact .raised _ hl

theorem safeSearch (src : NamedSource) (hs : L s s') (hv : V v v') :
    Ending.Rel L V (safeSearch S src v s) (CentralOps.safeSearch S' src v' s') :=
  rel_attempt_bind (sim.sourceSearch src.source hs hv) (fun _ _ _ _ hw ht => rel_pure ht hw)
    (fun _ _ _ ht => rel_pure ht sim.null)

theorem jsonParse (tolerant : Bool) (hs : L s s') (hv : V v v') :
    Ending.Rel L V (jsonParse S rt tolerant v s) (CentralOps.jsonParse S' rt tolerant v' s') := by
  have hother : ∀ {t t'} (msg : String), L t t' → Ending.Rel L V
      ((if tolerant then pure (S.scalar .null)
        else CentralOps.liftExc (operatorError msg) : Proc σ Exc ν) t)
      ((if tolerant then pure (S'.scalar .null)
        else CentralOps.liftExc (operatorError msg) : Proc σ' Exc ν') t') := by
    intro t t' msg ht
    cases tolerant with
    | true => exact rel_pure ht sim.null
    | false => exact refuse ht _
  refine rel_bind (sim.look hs hv) fun c c' t t' hc ht => ?_
  cases hc with
  | list hm => exact hother _ ht
  | dict hm => exact hother _ ht
  | scalar x =>
    cases x with
    | null => exact rel_pure ht sim.null
    | bool b => exact hother _ ht
    | int n => exact hother _ ht
    | float x => exact hother _ ht
    | str text =>
      dsimp only
      cases rt.utf8Size text with
      | none => exact rel_raise ht _
      | some size =>
        dsimp only
        by_cases hsize : rt.jsonMaxBytes < size
        · rw [if_pos hsize, if_pos hsize]
          exact rel_raise ht _
        · rw [if_neg hsize, if_neg hsize]
          cases rt.loads text with
          | ok j => exact .ok (sim.load j ht).1 (sim.load j ht).2
          | error msg => exact hother _ ht

theorem evaluatePredicate (hs : L s s') (hd : V d d') (hp : PredicateRel V p p') :
    Ending.Rel L Eq (evaluatePredicate S rt d p s)
      (CentralOps.evaluatePredicate S' rt d' p' s') := by
  induction hp with
  | pathExists src =>
    refine rel_bind (sim.safeSearch src hs hd) fun w w' t t' hw ht => ?_
    refine rel_pure (s := t) (t := t') ht ?_
    rw [sim.isNone ht hw]
  | equals src hlit =>
    refine rel_bind (sim.safeSearch src hs hd) fun w w' t t' hw ht => ?_
    change Ending.Rel L Eq (CentralOps.liftExc (uncaught (S.eq t rt.stackLimit w _)) t)
      (CentralOps.liftExc (uncaught (S'.eq t' rt.stackLimit w' _)) t')
    rw [sim.eq ht rt.stackLimit hw hlit]
    exact liftExc ht _
  | isIn src hlits =>
    refine rel_bind (sim.safeSearch src hs hd) fun w w' t t' hw ht => ?_
    change Ending.Rel L Eq (CentralOps.liftExc (uncaught (S.isIn t rt.stackLimit w _)) t)
      (CentralOps.liftExc (uncaught (S'.isIn t' rt.stackLimit w' _)) t')
    rw [sim.isIn ht rt.stackLimit hw hlits]
    exact liftExc ht _
  | negated _ ih =>
    refine rel_bind ih fun b b' t t' hb ht => ?_
    exact rel_pure ht (congrArg (!·) hb)

theorem ruleGate (hs : L s s') (hr : RuleRel V r r') (hraw : V raw raw') (hext : V ext ext') :
    Ending.Rel L Eq (ruleGate S rt r raw ext s) (CentralOps.ruleGate S' rt r' raw' ext' s') := by
  have hroot : V (ruleRoot r raw ext) (ruleRoot r' raw' ext') := by
    unfold ruleRoot CompiledRule.readsExtracted
    rw [hr.source]
    split
    · exact hext
    · exact hraw
  have hwhen := hr.whenPredicate
  unfold CentralOps.ruleGate
  generalize r.whenPredicate = p at hwhen
  generalize r'.whenPredicate = p' at hwhen
  cases hwhen with
  | none => exact rel_pure hs rfl
  | some hp => exact sim.evaluatePredicate rt hs hroot hp

theorem resolveFallbacks (hroot : V root root') (fbs : List NamedSource) :
    ∀ {s s' v v'}, L s s' → V v v' →
      Ending.Rel L V (resolveFallbacks S root fbs v s)
        (CentralOps.resolveFallbacks S' root' fbs v' s') := by
  induction fbs with
  | nil => intro s s' v v' hs hv; exact rel_pure hs hv
  | cons fb fbs ih =>
    intro s s' v v' hs hv
    change Ending.Rel L V
      ((if S.isNone s v then _ else _ : Proc σ Exc ν) s)
      ((if S'.isNone s' v' then _ else _ : Proc σ' Exc ν') s')
    rw [sim.isNone hs hv]
    split
    · exact rel_bind (sim.sourceSearch fb.source hs hroot) fun w w' t t' hw ht => ih ht hw
    · exact rel_pure hs hv

theorem resolveRule (hs : L s s') (hr : RuleRel V r r') (hraw : V raw raw') (hext : V ext ext') :
    Ending.Rel L V (resolveRule S rt r raw ext s)
      (CentralOps.resolveRule S' rt r' raw' ext' s') := by
  have hvalue : Ending.Rel L V (resolveValue S rt r raw ext s)
      (resolveValue S' rt r' raw' ext' s') := by
    have hconst := hr.const
    unfold resolveValue CompiledRule.readsExtracted
    rw [hr.source, hr.target, hr.fallbacks]
    generalize r.const = c at hconst
    generalize r'.const = c' at hconst
    cases hconst with
    | some hv => exact rel_pure hs hv
    | none =>
      cases r'.source with
      | none => exact rel_raise hs _
      | some src =>
        dsimp only
        have hroot : V (if ((some src).map NamedSource.isExtracted).getD false then ext else raw)
            (if ((some src).map NamedSource.isExtracted).getD false then ext' else raw') := by
          split
          · exact hext
          · exact hraw
        exact rel_bind (sim.sourceSearch src.source hs hroot)
          fun w w' t t' hw ht => sim.resolveFallbacks hroot r'.fallbacks ht hw
  refine rel_attempt_bind hvalue (fun _ _ _ _ hw ht => rel_pure ht hw) fun e t t' ht => ?_
  have herr : ruleError rt r = ruleError rt r' := by
    unfold ruleError
    rw [hr.target]
  dsimp only
  rw [herr]
  exact rel_raise ht _

theorem preprocessBody (hraw : V raw raw') (hext : V ext ext') (hW : ∀ t key, W t ext [key])
    (consumed : List String) (op : CompiledPreprocessOp) (hs : L s s') :
    Ending.Rel L Eq (preprocessBody S rt raw ext consumed op s)
      (CentralOps.preprocessBody S' rt raw' ext' consumed op s') := by
  refine rel_bind (sim.sourceSearch op.source.source hs hraw) fun w w' t t' hw ht => ?_
  refine rel_bind (sim.jsonParse rt op.tolerant ht hw) fun r r' t t' hr ht => ?_
  refine rel_bind (sim.write ht hext hr (hW t op.target)) fun _ _ t t' _ ht => ?_
  refine rel_pure (s := t) (t := t') ht ?_
  rw [sim.isNone ht hw]

theorem preprocessOp (hraw : V raw raw') (hext : V ext ext') (hW : ∀ t key, W t ext [key])
    (consumed : List String) (op : CompiledPreprocessOp) (hs : L s s') :
    Ending.Rel L Eq (preprocessOp S rt raw ext consumed op s)
      (CentralOps.preprocessOp S' rt raw' ext' consumed op s') := by
  refine rel_attempt_bind (sim.preprocessBody rt hraw hext hW consumed op hs)
    (fun _ _ _ _ hw ht => rel_pure ht hw) fun e t t' ht => ?_
  cases e with
  | operatorSize msg => exact rel_raise ht _
  | requiredField target => exact rel_raise ht _
  | mapping msg => exact rel_raise ht _
  | jmespath msg => exact rel_raise ht _
  | python e => exact rel_raise ht _
  | operator msg =>
    dsimp only
    cases op.tolerant with
    | false => exact rel_raise ht _
    | true =>
      refine rel_bind (sim.write ht hext sim.null (hW t op.target)) fun _ _ t t' _ ht => ?_
      exact rel_pure ht rfl

omit sim in
theorem catchOperator {Q : α → β → Prop} {m : Proc σ Exc α} {m' : Proc σ' Exc β}
    (wrap : String → Exc) (hm : Ending.Rel L Q (m s) (m' s')) :
    Ending.Rel L Q (catchOperator rt wrap m s) (CentralOps.catchOperator rt wrap m' s') := by
  refine rel_attempt_bind hm (fun _ _ _ _ hw ht => rel_pure ht hw) fun e t t' ht => ?_
  dsimp only
  split
  · exact rel_raise ht _
  · exact rel_raise ht _

omit sim in
theorem ruleError_eq (hr : RuleRel V r r') : ruleError rt r = ruleError rt r' := by
  unfold ruleError
  rw [hr.target]

theorem castStage (hr : RuleRel V r r') (stage : String) (cast : Option String) (skip : Bool)
    (hs : L s s') (hv : V v v') :
    Ending.Rel L V (castStage S rt r stage cast skip v s)
      (CentralOps.castStage S' rt r' stage cast skip v' s') := by
  cases cast with
  | none => exact rel_pure hs hv
  | some name =>
    change Ending.Rel L V ((if _ || S.isNone s v || skip then pure v else _ : Proc σ Exc ν) s)
      ((if _ || S'.isNone s' v' || skip then pure v' else _ : Proc σ' Exc ν') s')
    rw [sim.isNone hs hv, ruleError_eq rt hr]
    split
    · exact rel_pure hs hv
    · exact catchOperator rt _ (sim.applyTypeCast rt name hs hv)

theorem valueMapStage (hr : RuleRel V r r') (usedDefault usedIngest : Bool) (hs : L s s')
    (hv : V v v') :
    Ending.Rel L V (valueMapStage S rt r usedDefault usedIngest v s)
      (CentralOps.valueMapStage S' rt r' usedDefault usedIngest v' s') := by
  have hmap := hr.valueMap
  have hmiss : V (if usedIngest then v else r.default.getD v)
      (if usedIngest then v' else r'.default.getD v') := by
    split
    · exact hv
    · exact getD_rel hr.default hv
  unfold CentralOps.valueMapStage
  rw [ruleError_eq rt hr]
  generalize r.valueMap = m at hmap
  generalize r'.valueMap = m' at hmap
  cases hmap with
  | none => exact rel_pure hs hv
  | @some fs gs hm =>
    change Ending.Rel L V ((if S.isNone s v || usedDefault then pure v else _ : Proc σ Exc ν) s)
      ((if S'.isNone s' v' || usedDefault then pure v' else _ : Proc σ' Exc ν') s')
    rw [sim.isNone hs hv]
    split
    · exact rel_pure hs hv
    · refine catchOperator rt _ (rel_bind (sim.valueMapHit rt hs hv hm) fun x x' t t' hx ht => ?_)
      exact rel_pure ht (getD_rel hx hmiss)

theorem ruleStart (hr : RuleRel V r r') (ingest : Option Int) (hs : L s s') (hv : V v v') :
    V (ruleStart S r ingest v s).value (CentralOps.ruleStart S' r' ingest v' s').value ∧
      (CentralOps.ruleStart S r ingest v s).usedDefault =
        (CentralOps.ruleStart S' r' ingest v' s').usedDefault ∧
      (CentralOps.ruleStart S r ingest v s).usedIngest =
        (CentralOps.ruleStart S' r' ingest v' s').usedIngest := by
  have hsome : r.default.isSome = r'.default.isSome := by
    have h := hr.default
    generalize r.default = x at h
    generalize r'.default = y at h
    cases h with
    | none => rfl
    | some _ => rfl
  have hdef : V (if r.default.isSome && S.isNone s v then r.default.getD v else v)
      (if r'.default.isSome && S'.isNone s' v' then r'.default.getD v' else v') := by
    rw [hsome, sim.isNone hs hv]
    split
    · exact getD_rel hr.default hv
    · exact hv
  have hnone := sim.isNone hs hdef
  unfold CentralOps.ruleStart
  dsimp only
  rw [hnone, hr.defaultFromIngest]
  refine ⟨?_, by rw [hsome, sim.isNone hs hv], rfl⟩
  cases (S'.isNone s' (if r'.default.isSome && S'.isNone s' v' then r'.default.getD v' else v') &&
    r'.defaultFromIngest && ingest.isSome) with
  | true => exact sim.scalar _
  | false => exact hdef

theorem ruleChain (hr : RuleRel V r r') (hs : L s s') {start : RuleStart ν}
    {start' : RuleStart ν'} (hv : V start.value start'.value)
    (hd : start.usedDefault = start'.usedDefault) (hi : start.usedIngest = start'.usedIngest) :
    Ending.Rel L V (ruleChain S rt r start s) (CentralOps.ruleChain S' rt r' start' s') := by
  unfold CentralOps.ruleChain
  rw [hd, hi, hr.preCast, hr.typeCast, hr.target, hr.required]
  refine rel_bind (sim.castStage rt hr _ _ _ hs hv) fun w w' t t' hw ht => ?_
  change Ending.Rel L V ((if S.isNone t w && _ then _ else _ : Proc σ Exc ν) t)
    ((if S'.isNone t' w' && _ then _ else _ : Proc σ' Exc ν') t')
  rw [sim.isNone ht hw]
  split
  · exact rel_raise ht _
  · refine rel_bind (sim.valueMapStage rt hr _ _ ht hw) fun w w' t t' hw ht => ?_
    exact sim.castStage rt hr _ _ _ ht hw

end ObjectsSim

structure OutcomeRel (V : ν → ν' → Prop) (o : RuleOutcome ν) (o' : RuleOutcome ν') : Prop where
  value : V o.value o'.value
  resolved : o.resolved = o'.resolved
  usedDefault : o.usedDefault = o'.usedDefault
  usedIngest : o.usedIngest = o'.usedIngest

namespace ObjectsSim

variable {σ σ' ν ν' : Type} {S : Objects σ ν} {S' : Objects σ' ν'} {L : σ → σ' → Prop}
  {V : ν → ν' → Prop} {W : σ → ν → List String → Prop}
  (sim : ObjectsSim S S' L V W) (rt : MappingRuntime) {s : σ} {s' : σ'} {v : ν} {v' : ν'}

include sim

theorem ruleValue (hs : L s s') (hr : RuleRel V r r') (hraw : V raw raw') (hext : V ext ext')
    (ingest : Option Int) :
    Ending.Rel L (OutcomeRel V) (ruleValue S rt r raw ext ingest s)
      (CentralOps.ruleValue S' rt r' raw' ext' ingest s') := by
  refine rel_bind (sim.resolveRule rt hs hr hraw hext) fun w w' t t' hw ht => ?_
  obtain ⟨hv, hd, hi⟩ := sim.ruleStart hr ingest ht hw
  change Ending.Rel L _
    ((CentralOps.ruleChain S rt r (CentralOps.ruleStart S r ingest w t) >>= _) t)
    ((CentralOps.ruleChain S' rt r' (CentralOps.ruleStart S' r' ingest w' t') >>= _) t')
  refine rel_bind (sim.ruleChain rt hr ht hv hd hi) fun x x' u u' hx hu => ?_
  exact rel_pure hu ⟨hx, congrArg (!·) (sim.isNone ht hw), hd, hi⟩

theorem itemElements (item : CompiledArrayBuilderItem) (hs : L s s') (hv : V v v') :
    List.Forall₂ V (itemElements S s item v) (CentralOps.itemElements S' s' item v') := by
  have hone : List.Forall₂ V [v] [v'] := .cons hv .nil
  unfold CentralOps.itemElements
  split
  · have hc := sim.shape hs hv
    generalize S.shape s v = c at hc
    generalize S'.shape s' v' = c' at hc
    cases hc with
    | dict hm => exact hone
    | list hm =>
      dsimp only
      split
      · exact filter_rel (fun a b hab => by rw [sim.isNone hs hab]) hm
      · exact hm
    | scalar x =>
      cases x with
      | null => exact .nil
      | bool b => exact hone
      | int n => exact hone
      | float x => exact hone
      | str t => exact hone
  · rw [sim.isNone hs hv]
    split
    · exact .nil
    · exact hone

theorem itemObservables (item : CompiledArrayBuilderItem) (hraw : V raw raw') (hext : V ext ext')
    (hs : L s s') :
    Ending.Rel L (List.Forall₂ (List.Forall₂ (FieldRel V))) (itemObservables S raw ext item s)
      (CentralOps.itemObservables S' raw' ext' item s') := by
  have hroot : V (if item.source.isExtracted then ext else raw)
      (if item.source.isExtracted then ext' else raw') := by
    split
    · exact hext
    · exact hraw
  refine rel_bind (sim.sourceSearch item.source.source hs hroot) fun w w' t t' hw ht => ?_
  have helements := sim.itemElements item ht hw
  refine rel_pure (s := t) (t := t') ht (List.rel_map (fun a b hab => ?_) helements)
  exact .cons (field_rel _ (sim.scalar _)) (.cons (field_rel _ (sim.scalar _))
    (.cons (field_rel _ (sim.scalar _)) (.cons (field_rel _ hab) .nil)))

theorem dedupKey (hs : L s s') (names : List String) (h : List.Forall₂ (FieldRel V) fs gs) :
    dedupKey S s names fs = CentralOps.dedupKey S' s' names gs := by
  unfold CentralOps.dedupKey
  congr 1
  funext k
  have hv : V ((fs.lookup k).getD (S.scalar .null)) ((gs.lookup k).getD (S'.scalar .null)) :=
    getD_rel (lookup_rel h k) sim.null
  have hc := sim.shape hs hv
  unfold CentralOps.hashable
  generalize S.shape s _ = c at hc
  generalize S'.shape s' _ = c' at hc
  cases hc with
  | scalar x => rfl
  | list hm => rfl
  | dict hm => rfl

theorem dedupObservables (hs : L s s') (names : List String)
    (h : List.Forall₂ (List.Forall₂ (FieldRel V)) obs obs') :
    ∀ seen, Except.Rel (List.Forall₂ (List.Forall₂ (FieldRel V)))
      (dedupObservables S s names seen obs)
      (CentralOps.dedupObservables S' s' names seen obs') := by
  induction h with
  | nil => intro seen; exact .ok .nil
  | cons hab _ ih =>
    intro seen
    unfold CentralOps.dedupObservables
    rw [sim.dedupKey hs names hab]
    cases CentralOps.dedupKey S' s' names _ with
    | error e => exact .error e
    | ok key =>
      simp only [bind, Except.bind]
      split
      · exact ih seen
      · have hrest := ih (key :: seen)
        generalize CentralOps.dedupObservables S s names (key :: seen) _ = x at hrest
        generalize CentralOps.dedupObservables S' s' names (key :: seen) _ = y at hrest
        cases hrest with
        | ok hq => exact .ok (.cons hab hq)
        | error e => exact .error e

omit sim in
theorem liftExc_uncaught {Q : α → β → Prop} (hs : L s s') {r : Except PyError α}
    {r' : Except PyError β} (h : Except.Rel Q r r') :
    Ending.Rel L Q ((CentralOps.liftExc (uncaught r) : Proc σ Exc α) s)
      ((CentralOps.liftExc (uncaught r') : Proc σ' Exc β) s') := by
  cases h with
  | ok hq => exact .ok hq hs
  | error e => exact .raised _ hs

theorem applyArrayBuilder (rule : CompiledArrayBuilderRule) (hraw : V raw raw')
    (hext : V ext ext') (hs : L s s') :
    Ending.Rel L V (applyArrayBuilder S rule raw ext s)
      (CentralOps.applyArrayBuilder S' rule raw' ext' s') := by
  have hitem (i j : CompiledArrayBuilderItem) (t : σ) (t' : σ') (hij : i = j) (ht : L t t') :
      Ending.Rel L (List.Forall₂ (List.Forall₂ (FieldRel V)))
        (CentralOps.itemObservables S raw ext i t)
        (CentralOps.itemObservables S' raw' ext' j t') := by
    rw [← hij]
    exact sim.itemObservables i hraw hext ht
  have hnew (o : Observable ν) (o' : Observable ν') (t : σ) (t' : σ')
      (ho : List.Forall₂ (FieldRel V) o o') (ht : L t t') :
      Ending.Rel L V (S.new (.dict o) t) (S'.new (.dict o') t') := sim.new ht (.dict ho)
  refine rel_bind (rel_each hitem (List.forall₂_refl rule.items) s s' hs)
    fun found found' t t' hfound ht => ?_
  have hdedup : Except.Rel (List.Forall₂ (List.Forall₂ (FieldRel V)))
      (dedupBy S t rule.dedupBy found.flatten) (dedupBy S' t' rule.dedupBy found'.flatten) := by
    unfold dedupBy
    split
    · exact .ok (List.rel_flatten hfound)
    · exact sim.dedupObservables ht _ (List.rel_flatten hfound) []
  change Ending.Rel L V
    ((CentralOps.liftExc (uncaught (dedupBy S t rule.dedupBy found.flatten)) >>= _) t)
    ((CentralOps.liftExc (uncaught (dedupBy S' t' rule.dedupBy found'.flatten)) >>= _) t')
  refine rel_bind (liftExc_uncaught ht hdedup) fun kept kept' t t' hkept ht => ?_
  refine rel_bind (rel_each hnew hkept t t' ht) fun made made' t t' hmade ht => ?_
  exact sim.new ht (.list hmade)

end ObjectsSim

inductive LeafRel (V : ν → ν' → Prop) : LeafResult ν → LeafResult ν' → Prop where
  | unchanged : LeafRel V .unchanged .unchanged
  | remove (mark : String) : LeafRel V (.remove mark) (.remove mark)
  | replace (h : V v v') (mark : String) : LeafRel V (.replace v mark) (.replace v' mark)

def RewriteRel (V : ν → ν' → Prop) (r : Rewrite ν) (r' : Rewrite ν') : Prop :=
  Option.Rel V r.1 r'.1 ∧ r.2 = r'.2

namespace ObjectsSim

variable {σ σ' ν ν' : Type} {S : Objects σ ν} {S' : Objects σ' ν'} {L : σ → σ' → Prop}
  {V : ν → ν' → Prop} {W : σ → ν → List String → Prop}
  (sim : ObjectsSim S S' L V W) (rt : MappingRuntime) {s : σ} {s' : σ'} {v : ν} {v' : ν'}

include sim

theorem keepOnlyLeaf (spec : CompiledReductionSpec) (hs : L s s')
    (h : List.Forall₂ (FieldRel V) fs gs) :
    Ending.Rel L (LeafRel V) (keepOnlyLeaf S spec fs s)
      (CentralOps.keepOnlyLeaf S' spec gs s') := by
  unfold CentralOps.keepOnlyLeaf
  cases spec.keepOnly with
  | none => exact rel_pure hs .unchanged
  | some names =>
    have hkept : List.Forall₂ (FieldRel V) (fs.filter (fun p => names.contains p.1))
        (gs.filter (fun p => names.contains p.1)) :=
      filter_rel (fun p q hpq => by rw [hpq.1]) h
    dsimp only
    rw [h.length_eq, hkept.length_eq]
    by_cases hsize : (gs.filter (fun p => names.contains p.1)).length = gs.length
    · rw [if_pos hsize, if_pos hsize]
      exact rel_pure hs .unchanged
    · rw [if_neg hsize, if_neg hsize]
      refine rel_bind (sim.new hs (.dict hkept)) fun w w' t t' hw ht => ?_
      exact rel_pure ht (.replace hw _)

theorem maxItemsLeaf (spec : CompiledReductionSpec) (hs : L s s') (h : List.Forall₂ V xs ys) :
    Ending.Rel L (LeafRel V) (maxItemsLeaf S spec xs s)
      (CentralOps.maxItemsLeaf S' spec ys s') := by
  unfold CentralOps.maxItemsLeaf
  cases spec.maxItems with
  | none => exact rel_pure hs .unchanged
  | some limit =>
    dsimp only
    rw [h.length_eq]
    by_cases hsize : limit < ys.length
    · rw [if_pos hsize, if_pos hsize]
      refine rel_bind (sim.new hs (.list (List.forall₂_take limit h))) fun w w' t t' hw ht => ?_
      exact rel_pure ht (.replace hw _)
    · rw [if_neg hsize, if_neg hsize]
      exact rel_pure hs .unchanged

theorem maxBytesLeaf (spec : CompiledReductionSpec) (hs : L s s') (text : String) :
    Ending.Rel L (LeafRel V) (maxBytesLeaf S rt spec text s)
      (CentralOps.maxBytesLeaf S' rt spec text s') := by
  unfold CentralOps.maxBytesLeaf
  cases spec.maxBytes with
  | none => exact rel_pure hs .unchanged
  | some limit =>
    cases rt.utf8Size text with
    | none => exact rel_raise hs _
    | some size =>
      dsimp only
      by_cases hsize : limit < size
      · rw [if_pos hsize, if_pos hsize]
        exact rel_pure hs (.replace (sim.scalar _) _)
      · rw [if_neg hsize, if_neg hsize]
        exact rel_pure hs .unchanged

theorem reductionLeaf (spec : CompiledReductionSpec) (hs : L s s') (hv : V v v') :
    Ending.Rel L (LeafRel V) (reductionLeaf S rt spec v s)
      (CentralOps.reductionLeaf S' rt spec v' s') := by
  unfold CentralOps.reductionLeaf
  cases spec.drop with
  | true => exact rel_pure hs (.remove _)
  | false =>
    refine rel_bind (sim.look hs hv) fun c c' t t' hc ht => ?_
    cases hc with
    | list hm => exact sim.maxItemsLeaf spec ht hm
    | dict hm => exact sim.keepOnlyLeaf spec ht hm
    | scalar x =>
      cases x with
      | null => exact rel_pure ht .unchanged
      | bool b => exact rel_pure ht .unchanged
      | int n => exact rel_pure ht .unchanged
      | float x => exact rel_pure ht .unchanged
      | str text => exact sim.maxBytesLeaf rt spec ht text

theorem rewriteList (hs : L s s') (h : List.Forall₂ V xs ys)
    (houts : List.Forall₂ (RewriteRel V) outs outs') :
    Ending.Rel L (RewriteRel V) (rewriteList S xs outs s)
      (CentralOps.rewriteList S' ys outs' s') := by
  have hmarks : outs.flatMap Prod.snd = outs'.flatMap Prod.snd :=
    flatMap_eq (fun _ _ h => h.2) houts
  have hany : outs.any (fun r => r.1.isSome) = outs'.any (fun r => r.1.isSome) :=
    any_rel (fun _ _ h => isSome_rel h.1) houts
  unfold CentralOps.rewriteList
  rw [hmarks, hany]
  cases outs'.any (fun r => r.1.isSome) with
  | false => exact rel_pure hs ⟨.none, rfl⟩
  | true =>
    have hzip := zipWith_rel (C := V) (f := fun x (r : Rewrite ν) => r.1.getD x)
      (g := fun x (r : Rewrite ν') => r.1.getD x) (fun _ _ _ _ hx hr => getD_rel hr.1 hx) h houts
    refine rel_bind (sim.new hs (.list hzip)) fun w w' t t' hw ht => ?_
    exact rel_pure ht ⟨.some hw, rfl⟩

theorem transformLeaf (hs : L s s') (h : List.Forall₂ (FieldRel V) fs gs) (key : String)
    (hr : LeafRel V r r') :
    Ending.Rel L (RewriteRel V) (transformLeaf S fs key r s)
      (CentralOps.transformLeaf S' gs key r' s') := by
  cases hr with
  | unchanged => exact rel_pure hs ⟨.none, rfl⟩
  | remove mark =>
    refine rel_bind (sim.new hs (.dict (erase_rel h key))) fun w w' t t' hw ht => ?_
    exact rel_pure ht ⟨.some hw, rfl⟩
  | replace hv mark =>
    refine rel_bind (sim.new hs (.dict (set_rel h key hv))) fun w w' t t' hw ht => ?_
    exact rel_pure ht ⟨.some hw, rfl⟩

omit sim in
theorem memberAt (head : String) (h : List.Forall₂ (FieldRel V) fs gs) :
    Option.Rel V (memberAt head fs) (CentralOps.memberAt head gs) := by
  unfold CentralOps.memberAt
  by_cases hw : head = listWildcard
  · rw [if_pos hw, if_pos hw]
    exact .none
  · rw [if_neg hw, if_neg hw]
    exact lookup_rel h head

theorem transform {leaf : ν → Proc σ Exc (LeafResult ν)} {leaf' : ν' → Proc σ' Exc (LeafResult ν')}
    (hleaf : ∀ {s s' v v'}, L s s' → V v v' → Ending.Rel L (LeafRel V) (leaf v s) (leaf' v' s'))
    (fuel : Nat) :
    ∀ path {s s' v v'}, L s s' → V v v' →
      Ending.Rel L (RewriteRel V) (transform S leaf fuel path v s)
        (CentralOps.transform S' leaf' fuel path v' s') := by
  induction fuel with
  | zero => intro path s s' v v' hs hv; exact rel_raise hs _
  | succ fuel ih =>
    intro path s s' v v' hs hv
    cases path with
    | nil => exact rel_pure hs ⟨.none, rfl⟩
    | cons head rest =>
      refine rel_bind (sim.look hs hv) fun c c' t t' hc ht => ?_
      cases hc with
      | scalar x => exact rel_pure ht ⟨.none, rfl⟩
      | list hm =>
        dsimp only
        by_cases hw : head = listWildcard
        · rw [if_pos hw, if_pos hw]
          have hitem (x : ν) (y : ν') (t : σ) (t' : σ') (hxy : V x y) (ht : L t t') :=
            ih rest ht hxy
          refine rel_bind (rel_each hitem hm t t' ht) fun outs outs' t t' houts ht => ?_
          exact sim.rewriteList ht hm houts
        · rw [if_neg hw, if_neg hw]
          exact rel_pure ht ⟨.none, rfl⟩
      | @dict fs gs hm =>
        have hmember := memberAt head hm
        dsimp only
        generalize CentralOps.memberAt head fs = x at hmember
        generalize CentralOps.memberAt head gs = y at hmember
        cases hmember with
        | none => exact rel_pure ht ⟨.none, rfl⟩
        | some hv =>
          cases rest with
          | nil =>
            refine rel_bind (hleaf ht hv) fun r r' t t' hr ht => ?_
            exact sim.transformLeaf ht hm head hr
          | cons next rest =>
            refine rel_bind (ih (next :: rest) ht hv) fun r r' t t' hr ht => ?_
            obtain ⟨child, marks⟩ := r
            obtain ⟨child', marks'⟩ := r'
            obtain ⟨hchild, hmarks⟩ := hr
            obtain rfl : marks = marks' := hmarks
            cases hchild with
            | none => exact rel_pure ht ⟨.none, rfl⟩
            | some hw =>
              refine rel_bind (sim.new ht (.dict (set_rel hm head hw))) fun o o' t t' ho ht => ?_
              exact rel_pure ht ⟨.some ho, rfl⟩

theorem pruneNulls (fuel : Nat) :
    ∀ {s s' v v'}, L s s' → V v v' →
      Ending.Rel L (Option.Rel V) (pruneNulls S fuel v s)
        (CentralOps.pruneNulls S' fuel v' s') := by
  induction fuel with
  | zero => intro s s' v v' hs hv; exact rel_raise hs _
  | succ fuel ih =>
    intro s s' v v' hs hv
    refine rel_bind (sim.look hs hv) fun c c' t t' hc ht => ?_
    cases hc with
    | scalar x => exact rel_pure ht .none
    | list hm =>
      have hitem (x : ν) (y : ν') (t : σ) (t' : σ') (hxy : V x y) (ht : L t t') := ih ht hxy
      refine rel_bind (rel_each hitem hm t t' ht) fun outs outs' u u' houts hu => ?_
      rw [any_rel (fun _ _ h => isSome_rel h) houts]
      cases outs'.any Option.isSome with
      | false => exact rel_pure hu .none
      | true =>
        have hzip := zipWith_rel (C := V) (f := fun x (r : Option ν) => r.getD x)
          (g := fun x (r : Option ν') => r.getD x) (fun _ _ _ _ hx hr => getD_rel hr hx) hm houts
        refine rel_bind (sim.new hu (.list hzip)) fun w w' t t' hw ht => ?_
        exact rel_pure ht (.some hw)
    | @dict fs gs hm =>
      have hkept : List.Forall₂ (FieldRel V) (fs.filter (fun p => !S.isNone t p.2))
          (gs.filter (fun p => !S'.isNone t' p.2)) :=
        filter_rel (fun p q hpq => by rw [sim.isNone ht hpq.2]) hm
      have hfield (p : String × ν) (q : String × ν') (t : σ) (t' : σ') (hpq : FieldRel V p q)
          (ht : L t t') : Ending.Rel L (Option.Rel V) (CentralOps.pruneNulls S fuel p.2 t)
            (CentralOps.pruneNulls S' fuel q.2 t') := ih ht hpq.2
      change Ending.Rel L _ ((each _ (fs.filter (fun p => !S.isNone t p.2)) >>= _) t)
        ((each _ (gs.filter (fun p => !S'.isNone t' p.2)) >>= _) t')
      refine rel_bind (rel_each hfield hkept t t' ht) fun outs outs' u u' houts hu => ?_
      rw [any_rel (fun _ _ h => isSome_rel h) houts, hkept.length_eq, hm.length_eq]
      cases (decide ((gs.filter (fun p => !S'.isNone t' p.2)).length < gs.length) ||
        outs'.any Option.isSome) with
      | false => exact rel_pure hu .none
      | true =>
        have hzip := zipWith_rel (C := FieldRel V)
          (f := fun (p : String × ν) (r : Option ν) => (p.1, r.getD p.2))
          (g := fun (p : String × ν') (r : Option ν') => (p.1, r.getD p.2))
          (fun _ _ _ _ hp hr => ⟨hp.1, getD_rel hr hp.2⟩) hkept houts
        refine rel_bind (sim.new hu (.dict hzip)) fun w w' t t' hw ht => ?_
        exact rel_pure ht (.some hw)

theorem reduceStep (hraw : V raw raw') (spec : CompiledReductionSpec) {acc : Rewrite ν}
    {acc' : Rewrite ν'} (hacc : RewriteRel V acc acc') (hs : L s s') :
    Ending.Rel L (RewriteRel V) (reduceStep S rt raw acc spec s)
      (CentralOps.reduceStep S' rt raw' acc' spec s') := by
  have hobj : V (acc.1.getD raw) (acc'.1.getD raw') := getD_rel hacc.1 hraw
  unfold CentralOps.reduceStep
  cases spec.isGlobal with
  | true =>
    refine rel_bind (sim.pruneNulls rt.stackLimit hs hobj) fun r r' t t' hr ht => ?_
    cases hr with
    | none => exact rel_pure ht hacc
    | some hw => exact rel_pure ht ⟨.some hw, by rw [hacc.2]⟩
  | false =>
    refine rel_bind (sim.transform (sim.reductionLeaf rt spec) rt.stackLimit spec.pathParts hs hobj)
      fun r r' t t' hr ht => ?_
    obtain ⟨out, marks⟩ := r
    obtain ⟨out', marks'⟩ := r'
    obtain ⟨hout, hmarks⟩ := hr
    obtain rfl : marks = marks' := hmarks
    cases hout with
    | none => exact rel_pure ht hacc
    | some hw => exact rel_pure ht ⟨.some hw, by rw [hacc.2]⟩

theorem applyRawReduction (hraw : V raw raw') (specs : List CompiledReductionSpec) (hs : L s s') :
    Ending.Rel L (Option.Rel V) (applyRawReduction S rt raw specs s)
      (CentralOps.applyRawReduction S' rt raw' specs s') := by
  have hstep (acc : Rewrite ν) (acc' : Rewrite ν') (spec spec' : CompiledReductionSpec) (t : σ)
      (t' : σ') (hacc : RewriteRel V acc acc') (hspec : spec = spec') (ht : L t t') :
      Ending.Rel L (RewriteRel V) (CentralOps.reduceStep S rt raw acc spec t)
        (CentralOps.reduceStep S' rt raw' acc' spec' t') := by
    rw [← hspec]
    exact sim.reduceStep rt hraw spec hacc ht
  refine rel_bind (rel_fold_always hstep (List.forall₂_refl specs) ⟨.none, rfl⟩ hs)
    fun r r' t t' hr ht => ?_
  obtain ⟨out, marks⟩ := r
  obtain ⟨out', marks'⟩ := r'
  obtain ⟨hout, hmarks⟩ := hr
  obtain rfl : marks = marks' := hmarks
  cases hout with
  | none => exact rel_pure ht .none
  | some hobj =>
    refine rel_bind (sim.look ht hobj) fun c c' t t' hc ht => ?_
    cases hc with
    | scalar x => exact rel_pure ht .none
    | list hm => exact rel_pure ht .none
    | dict hm =>
      have hmarks : List.Forall₂ V (marks.map (fun m => S.scalar (.str m)))
          (marks.map (fun m => S'.scalar (.str m))) :=
        List.rel_map (fun a b (hab : a = b) => by rw [hab]; exact sim.scalar _)
          (List.forall₂_refl marks)
      refine rel_bind (sim.new ht (.list hmarks)) fun l l' t t' hl ht => ?_
      refine rel_bind (sim.new ht (.dict (set_rel hm _ hl))) fun w w' t t' hw ht => ?_
      exact rel_pure ht (.some hw)

theorem evalRule (hraw : V raw raw') (hext : V ext ext') (ingest : Option Int)
    (hr : AnyRuleRel V rule rule') (hs : L s s') :
    Ending.Rel L (Option.Rel (OutcomeRel V)) (evalRule S rt raw ext ingest rule s)
      (CentralOps.evalRule S' rt raw' ext' ingest rule' s') := by
  cases hr with
  | arrayBuilder r =>
    refine rel_bind (sim.applyArrayBuilder r hraw hext hs) fun w w' t t' hw ht => ?_
    exact rel_pure ht (.some ⟨hw, rfl, rfl, rfl⟩)
  | scalar hr =>
    refine rel_bind (sim.ruleGate rt hs hr hraw hext) fun b b' t t' hb ht => ?_
    obtain rfl : b = b' := hb
    cases b with
    | false => exact rel_pure ht .none
    | true =>
      refine rel_bind (sim.ruleValue rt ht hr hraw hext ingest) fun o o' t t' ho ht => ?_
      exact rel_pure ht (.some ho)

end ObjectsSim

structure ProgressRel (V : ν → ν' → Prop) (p : Progress ν) (p' : Progress ν') : Prop where
  output : V p.output p'.output
  consumed : p.consumed = p'.consumed
  defaultHits : p.defaultHits = p'.defaultHits
  ingestFallback : p.ingestFallback = p'.ingestFallback

structure ResultRel (V : ν → ν' → Prop) (r : ApplyResult ν) (r' : ApplyResult ν') : Prop where
  output : V r.output r'.output
  consumedPaths : r.consumedPaths = r'.consumedPaths
  defaultHits : r.defaultHits = r'.defaultHits
  ingestFallbackTargets : r.ingestFallbackTargets = r'.ingestFallbackTargets
  reducedRaw : Option.Rel V r.reducedRaw r'.reducedRaw

theorem PredicateRel.sourceStrs {V : ν → ν' → Prop} (h : PredicateRel V p p') :
    p.sourceStrs = p'.sourceStrs := by
  induction h with
  | pathExists src => rfl
  | equals src _ => rfl
  | isIn src _ => rfl
  | negated _ ih => exact ih

theorem AnyRuleRel.targetPath {V : ν → ν' → Prop} (h : AnyRuleRel V r r') :
    r.targetPath = r'.targetPath := by
  cases h with
  | scalar h => exact h.targetPath
  | arrayBuilder r => rfl

theorem gateMarks_rel {V : ν → ν' → Prop} (hr : RuleRel V r r') : gateMarks r = gateMarks r' := by
  have hwhen := hr.whenPredicate
  unfold gateMarks
  generalize r.whenPredicate = x at hwhen
  generalize r'.whenPredicate = y at hwhen
  cases hwhen with
  | none => rfl
  | some hp => simp only [Option.map_some, Option.getD_some, hp.sourceStrs]

theorem outcomeMarks_rel {V : ν → ν' → Prop} (hr : RuleRel V r r') (ho : OutcomeRel V o o') :
    outcomeMarks r o = outcomeMarks r' o' := by
  unfold outcomeMarks
  rw [hr.source, hr.target, hr.fallbacks, ho.resolved]

theorem ProgressRel.record {V : ν → ν' → Prop} (hp : ProgressRel V p p')
    (hr : AnyRuleRel V r r') (ho : Option.Rel (OutcomeRel V) o o') :
    ProgressRel V (p.record r o) (p'.record r' o') := by
  cases hr with
  | arrayBuilder r =>
    refine ⟨hp.output, ?_, hp.defaultHits, hp.ingestFallback⟩
    simp only [Progress.record, hp.consumed]
  | scalar hr =>
    cases ho with
    | none =>
      refine ⟨hp.output, ?_, hp.defaultHits, hp.ingestFallback⟩
      simp only [Progress.record, hp.consumed, gateMarks_rel hr]
    | some ho =>
      refine ⟨hp.output, ?_, ?_, ?_⟩
      · simp only [Progress.record, hp.consumed, gateMarks_rel hr, outcomeMarks_rel hr ho]
      · simp only [Progress.record, hp.defaultHits, ho.usedDefault, hr.target]
      · simp only [Progress.record, hp.ingestFallback, ho.usedIngest, hr.target]

section Stray
variable {σ ν : Type} (S : Objects σ ν) (rt : MappingRuntime) (W : σ → ν → List String → Prop)

/-- The rule is about to write where `W` does not allow it. -/
def StrayWrite (raw ext : ν) (ingest : Option Int) (p : Progress ν) (rule : AnyRule ν) (s : σ) :
    Prop :=
  Then (evalRule S rt raw ext ingest rule)
    (fun o t => o.isSome = true ∧ ¬ W t p.output rule.targetPath) s

def StrayPhases (compiled : CompiledRules ν) (raw : ν) (ingest : Option Int) (output ext : ν)
    (s : σ) : Prop :=
  Then (Proc.fold (preprocessOp S rt raw ext) [] compiled.preprocessOps)
    (fun consumed t =>
      FoldReaches (applyMappingRule S rt raw ext ingest) (StrayWrite S rt W raw ext ingest)
        ⟨output, consumed, [], []⟩ compiled.rules t) s

/-- Some rule that the call reaches writes where `W` does not allow it. -/
def StrayCall (compiled : CompiledRules ν) (raw : ν) (ingest : Option Int) (s : σ) : Prop :=
  let output := S.make (.dict []) s
  let ext := S.make (.dict []) output.2
  StrayPhases S rt W compiled raw ingest output.1 ext.1 ext.2

instance [∀ s t path, Decidable (W s t path)] (compiled : CompiledRules ν) (raw : ν)
    (ingest : Option Int) (s : σ) : Decidable (StrayCall S rt W compiled raw ingest s) := by
  unfold StrayCall StrayPhases StrayWrite
  infer_instance

theorem not_strayCall {W : σ → ν → List String → Prop} (hW : ∀ s t path, W s t path)
    (compiled : CompiledRules ν) (raw : ν) (ingest : Option Int) (s : σ) :
    ¬ StrayCall S rt W compiled raw ingest s := by
  refine not_then_of_never fun consumed t => not_foldReaches (fun p rule u => ?_) _ _ t
  exact not_then_of_never fun o v hstray => hstray.2 (hW _ _ _)

end Stray

namespace ObjectsSim

variable {σ σ' ν ν' : Type} {S : Objects σ ν} {S' : Objects σ' ν'} {L : σ → σ' → Prop}
  {V : ν → ν' → Prop} {W : σ → ν → List String → Prop}
  (sim : ObjectsSim S S' L V W) (rt : MappingRuntime) {s : σ} {s' : σ'} {v : ν} {v' : ν'}

include sim

theorem applyMappingRule (hraw : V raw raw') (hext : V ext ext') (ingest : Option Int)
    (hp : ProgressRel V p p') (hr : AnyRuleRel V rule rule') (hs : L s s')
    (hclean : ¬ StrayWrite S rt W raw ext ingest p rule s) :
    Ending.Rel L (ProgressRel V) (applyMappingRule S rt raw ext ingest p rule s)
      (CentralOps.applyMappingRule S' rt raw' ext' ingest p' rule' s') := by
  refine rel_bind_of (sim.evalRule rt hraw hext ingest hr hs) fun o o' t t' hok ho ht => ?_
  cases ho with
  | none => exact rel_pure ht (hp.record hr .none)
  | @some out out' hout =>
    have hw : W t p.output rule.targetPath := by
      by_contra hw
      refine hclean ?_
      unfold StrayWrite Then
      rw [hok]
      exact ⟨rfl, hw⟩
    rw [← hr.targetPath]
    refine rel_bind (sim.write ht hp.output hout.value hw) fun _ _ u u' _ hu => ?_
    exact rel_pure hu (hp.record hr (.some hout))

theorem applyPhases (hc : RulesRel V c c') (hraw : V raw raw') (ingest : Option Int)
    (hout : V output output') (hext : V ext ext') (hW : ∀ t key, W t ext [key]) (hs : L s s')
    (hclean : ¬ StrayPhases S rt W c raw ingest output ext s) :
    Ending.Rel L (ResultRel V) (applyPhases S rt c raw ingest output ext s)
      (CentralOps.applyPhases S' rt c' raw' ingest output' ext' s') := by
  have hop (consumed consumed' : List String) (op op' : CompiledPreprocessOp) (t : σ) (t' : σ')
      (hcons : consumed = consumed') (hop : op = op') (ht : L t t') :
      Ending.Rel L Eq (CentralOps.preprocessOp S rt raw ext consumed op t)
        (CentralOps.preprocessOp S' rt raw' ext' consumed' op' t') := by
    rw [← hcons, ← hop]
    exact sim.preprocessOp rt hraw hext hW consumed op ht
  have hpre : List.Forall₂ Eq c.preprocessOps c'.preprocessOps := by
    rw [hc.preprocessOps]
    exact List.forall₂_refl _
  unfold CentralOps.applyPhases
  refine rel_bind_of (rel_fold_always hop hpre rfl hs)
    fun consumed consumed' t t' hok hcons ht => ?_
  obtain rfl : consumed = consumed' := hcons
  have hclean' : ¬ FoldReaches (CentralOps.applyMappingRule S rt raw ext ingest)
      (StrayWrite S rt W raw ext ingest) ⟨output, consumed, [], []⟩ c.rules t := by
    unfold StrayPhases Then at hclean
    rw [hok] at hclean
    exact hclean
  have hrule (p : Progress ν) (p' : Progress ν') (r : AnyRule ν) (r' : AnyRule ν') (t : σ) (t' : σ')
      (hp : ProgressRel V p p') (hr : AnyRuleRel V r r') (ht : L t t') :=
    sim.applyMappingRule rt hraw hext ingest hp hr ht
  refine rel_bind (rel_fold hrule hc.rules _ _ t t' ⟨hout, rfl, rfl, rfl⟩ ht hclean')
    fun p p' t t' hp ht => ?_
  rw [hc.rawReduction]
  refine rel_bind (sim.applyRawReduction rt hraw c'.rawReduction ht) fun r r' t t' hr ht => ?_
  exact rel_pure ht ⟨hp.output, hp.consumed, hp.defaultHits, hp.ingestFallback, hr⟩

/-- A call on either store ends alike, unless it writes where `W` does not allow it. -/
theorem applyCompiled (hc : RulesRel V c c') (hraw : V raw raw') (ingest : Option Int)
    (hs : L s s')
    (hW : ∀ t key, W t (S.make (.dict []) (S.make (.dict []) s).2).1 [key])
    (hclean : ¬ StrayCall S rt W c raw ingest s) :
    Ending.Rel L (ResultRel V) (applyCompiled S rt c raw ingest s)
      (CentralOps.applyCompiled S' rt c' raw' ingest s') := by
  obtain ⟨hout, ht⟩ := sim.make hs (Shape.Rel.dict .nil)
  obtain ⟨hext, hu⟩ := sim.make ht (Shape.Rel.dict .nil)
  exact sim.applyPhases rt hc hraw ingest hout hext hW hu hclean

theorem read (hs : L s s') (fuel : Nat) :
    ∀ {v v'}, V v v' → S.read s fuel v = S'.read s' fuel v' := by
  induction fuel with
  | zero => intro v v' hv; rfl
  | succ fuel ih =>
    intro v v' hv
    have h := sim.shape hs hv
    unfold Objects.read
    generalize S.shape s v = c at h
    generalize S'.shape s' v' = c' at h
    cases h with
    | scalar x => rfl
    | list hm => dsimp only; rw [map_eq (fun a b hab => ih hab) hm]
    | dict hm => dsimp only; rw [map_eq (fun p q hpq => by rw [ih hpq.2, hpq.1]) hm]

end ObjectsSim
end CentralOps
