import CentralOps.Lib.PathTree
import CentralOps.Lib.Turns
import CentralOps.Normalize.History

namespace CentralOps
set_option autoImplicit true

open Heap (Fenced Outside)

/-- A library that keeps the further promise that what a search finds exists. -/
structure Jmespath.Sound (J : Jmespath) : Prop extends J.Lawful where
  finds : ∀ expr v h, Fenced (fun _ => False) h → Outside (fun _ => False) h v →
    Fenced (fun _ => False) (J.search expr v h).2 ∧
      ∀ w, (J.search expr v h).1 = .ok w → Outside (fun _ => False) (J.search expr v h).2 w

theorem Jmespath.none_sound : Jmespath.none.Sound where
  toLawful := Jmespath.none_lawful
  finds _ _ _ hf _ := ⟨hf, fun _ hw => nomatch hw⟩

variable {K : Nat → Prop} {h h' : Heap Scalar}

/-- However a run ends, no reference dangles and none leads from outside `K` into it; what is
returned is in `Q`. -/
def Fences (K : Nat → Prop) (m : Proc (Heap Scalar) Exc α) (h : Heap Scalar)
    (Q : α → Heap Scalar → Prop) : Prop :=
  Fenced K (m h).state ∧ h.length ≤ (m h).state.length ∧ ∀ a h', m h = .ok a h' → Q a h'

section Rules
variable {m : Proc (Heap Scalar) Exc α} {Q : α → Heap Scalar → Prop} {Q' : β → Heap Scalar → Prop}

theorem fences_pure {a : α} (hf : Fenced K h) (hq : Q a h) : Fences K (pure a) h Q :=
  ⟨hf, le_rfl, fun b h' hrun => by
    cases hrun
    exact hq⟩

theorem fences_raise (hf : Fenced K h) (e : Exc) :
    Fences K (Proc.raise e : Proc (Heap Scalar) Exc α) h Q :=
  ⟨hf, le_rfl, fun _ _ hrun => nomatch hrun⟩

theorem fences_liftExc (hf : Fenced K h) {r : Except Exc α} (hq : ∀ a, r = .ok a → Q a h) :
    Fences K (liftExc r) h Q := by
  cases r with
  | error e => exact fences_raise hf e
  | ok a => exact fences_pure hf (hq a rfl)

theorem Fences.bind {f : α → Proc (Heap Scalar) Exc β} (hm : Fences K m h Q)
    (hk : ∀ a h', Fenced K h' → h.length ≤ h'.length → Q a h' → Fences K (f a) h' Q') :
    Fences K (m >>= f) h Q' := by
  obtain ⟨hfence, hle, hq⟩ := hm
  cases hrun : m h with
  | ok a h' =>
    rw [hrun] at hfence hle
    obtain ⟨hfence', hle', hq'⟩ := hk a h' hfence hle (hq a h' hrun)
    have hbind := Proc.bind_ok hrun f
    refine ⟨?_, ?_, ?_⟩
    · rwa [hbind]
    · rw [hbind]
      exact hle.trans hle'
    · intro b h'' hb
      exact hq' b h'' (hbind ▸ hb)
  | raised e h' =>
    rw [hrun] at hfence hle
    have hbind := Proc.bind_raised hrun f
    exact ⟨by rwa [hbind], by rwa [hbind], fun b h'' hb => nomatch hbind.symm.trans hb⟩
  | crashed h' =>
    rw [hrun] at hfence hle
    have hbind := Proc.bind_crashed hrun f
    exact ⟨by rwa [hbind], by rwa [hbind], fun b h'' hb => nomatch hbind.symm.trans hb⟩

/-- A call with a handler. -/
theorem Fences.attempt {f : Except Exc α → Proc (Heap Scalar) Exc β} (hm : Fences K m h Q)
    (hok : ∀ a h', Fenced K h' → h.length ≤ h'.length → Q a h' → Fences K (f (.ok a)) h' Q')
    (herr : ∀ e h', Fenced K h' → h.length ≤ h'.length → Fences K (f (.error e)) h' Q') :
    Fences K (Proc.attempt m >>= f) h Q' := by
  have hattempt : Fences K (Proc.attempt m) h (fun r h' => ∀ a, r = .ok a → Q a h') := by
    obtain ⟨hfence, hle, hq⟩ := hm
    cases hrun : m h with
    | ok a h' =>
      have ha := Proc.attempt_ok hrun
      rw [hrun] at hfence hle
      refine ⟨by rwa [ha], by rwa [ha], fun r h'' hr b hb => ?_⟩
      rw [ha] at hr
      cases hr
      cases hb
      exact hq a h' hrun
    | raised e h' =>
      have ha := Proc.attempt_raised hrun
      rw [hrun] at hfence hle
      refine ⟨by rwa [ha], by rwa [ha], fun r h'' hr b hb => ?_⟩
      rw [ha] at hr
      cases hr
      cases hb
    | crashed h' =>
      have ha := Proc.attempt_crashed hrun
      rw [hrun] at hfence hle
      refine ⟨by rwa [ha], by rwa [ha], fun r h'' hr => ?_⟩
      rw [ha] at hr
      cases hr
  refine hattempt.bind (fun r h' hfence hle hr => ?_)
  cases r with
  | ok a => exact hok a h' hfence hle (hr a rfl)
  | error e => exact herr e h' hfence hle

theorem fences_get {f : Heap Scalar → Proc (Heap Scalar) Exc β} (hk : Fences K (f h) h Q') :
    Fences K (Proc.get >>= f) h Q' := hk

theorem fences_each {f : γ → Proc (Heap Scalar) Exc α} (xs : List γ) {h : Heap Scalar}
    (hf : Fenced K h)
    (hmono : ∀ a (h' h'' : Heap Scalar), h'.length ≤ h''.length → Q a h' → Q a h'')
    (hstep : ∀ x ∈ xs, ∀ h', Fenced K h' → h.length ≤ h'.length → Fences K (f x) h' Q) :
    Fences K (Proc.each f xs) h (fun as h' => ∀ a ∈ as, Q a h') := by
  induction xs generalizing h with
  | nil => exact fences_pure hf (fun a ha => absurd ha List.not_mem_nil)
  | cons x xs ih =>
    obtain ⟨hx, hxs⟩ := List.forall_mem_cons.1 hstep
    refine (hx h hf le_rfl).bind (fun a h' hf' hle hq => ?_)
    refine (ih hf' (fun y hy h'' hf'' hle' => hxs y hy h'' hf'' (hle.trans hle'))).bind
      (fun as h'' hf'' hle' hqs => ?_)
    exact fences_pure hf'' (List.forall_mem_cons.2 ⟨hmono a h' h'' hle' hq, hqs⟩)

end Rules

section Objects
variable {J : Jmespath} {Q : α → Heap Scalar → Prop}

theorem fences_look {v : Ref Scalar} (hf : Fenced K h) (hv : Outside K h v)
    {f : Shape Scalar (Ref Scalar) → Proc (Heap Scalar) Exc α}
    (hk : ∀ c, c.All (Outside K h) → Fences K (f c) h Q) :
    Fences K ((pythonObjects J).look v >>= f) h Q :=
  hk (h.shape v) (hf.shape hv)

theorem fences_new {c : Shape Scalar (Ref Scalar)} (hf : Fenced K h) (hc : c.All (Outside K h)) :
    Fences K ((pythonObjects J).new c) h (fun w h' => Outside K h' w) := by
  obtain ⟨hfence, hle, hw⟩ := hf.make hc
  exact ⟨hfence, hle, fun w h' hrun => by
    cases hrun
    exact hw⟩

theorem outside_scalar (K : Nat → Prop) (h : Heap Scalar) (x : Scalar) :
    Outside K h ((pythonObjects J).scalar x) := trivial

mutual
/-- Objects that `json.loads` builds are new. -/
theorem fenced_load : (j : Json) → {h : Heap Scalar} → Fenced K h →
    Fenced K ((pythonObjects J).load j h).2 ∧ h.length ≤ ((pythonObjects J).load j h).2.length ∧
      Outside K ((pythonObjects J).load j h).2 ((pythonObjects J).load j h).1
  | .null, _, hf | .bool _, _, hf | .int _, _, hf | .float _, _, hf | .str _, _, hf =>
    ⟨hf, le_rfl, trivial⟩
  | .list xs, h, hf => by
    obtain ⟨hfence, hle, hxs⟩ := fenced_loadList xs hf
    obtain ⟨hfence', hle', hw⟩ := hfence.make (c := .list _) hxs
    exact ⟨hfence', hle.trans hle', hw⟩
  | .obj o, h, hf => by
    obtain ⟨hfence, hle, ho⟩ := fenced_loadFields o hf
    obtain ⟨hfence', hle', hw⟩ := hfence.make (c := .dict _) ho
    exact ⟨hfence', hle.trans hle', hw⟩

theorem fenced_loadList : (xs : List Json) → {h : Heap Scalar} → Fenced K h →
    Fenced K ((pythonObjects J).loadList xs h).2 ∧
      h.length ≤ ((pythonObjects J).loadList xs h).2.length ∧
      ∀ w ∈ ((pythonObjects J).loadList xs h).1, Outside K ((pythonObjects J).loadList xs h).2 w
  | [], _, hf => ⟨hf, le_rfl, fun w hw => absurd hw List.not_mem_nil⟩
  | x :: xs, _, hf => by
    obtain ⟨hfence, hle, hx⟩ := fenced_load x hf
    obtain ⟨hfence', hle', hxs⟩ := fenced_loadList xs hfence
    exact ⟨hfence', hle.trans hle', List.forall_mem_cons.2 ⟨hx.mono hle', hxs⟩⟩

theorem fenced_loadFields : (o : Obj) → {h : Heap Scalar} → Fenced K h →
    Fenced K ((pythonObjects J).loadFields o h).2 ∧
      h.length ≤ ((pythonObjects J).loadFields o h).2.length ∧
      ∀ p ∈ ((pythonObjects J).loadFields o h).1,
        Outside K ((pythonObjects J).loadFields o h).2 p.2
  | [], _, hf => ⟨hf, le_rfl, fun p hp => absurd hp List.not_mem_nil⟩
  | (k, x) :: o, _, hf => by
    obtain ⟨hfence, hle, hx⟩ := fenced_load x hf
    obtain ⟨hfence', hle', ho⟩ := fenced_loadFields o hfence
    exact ⟨hfence', hle.trans hle', List.forall_mem_cons.2 ⟨hx.mono hle', ho⟩⟩
end

theorem outside_getField {v : Ref Scalar} (hf : Fenced K h) (hv : Outside K h v) (key : String) :
    Outside K h (getField (pythonObjects J) h v key) := by
  have hshape : ((pythonObjects J).shape h v).All (Outside K h) := hf.shape hv
  unfold getField
  cases hc : (pythonObjects J).shape h v with
  | scalar x => trivial
  | list xs => trivial
  | dict fs =>
    rw [hc] at hshape
    dsimp only
    cases hk : fs.lookup key with
    | none => trivial
    | some w => exact all_lookup hshape hk

theorem outside_dotSearch (keys : List String) {v : Ref Scalar} (hf : Fenced K h)
    (hv : Outside K h v) : Outside K h (dotSearch (pythonObjects J) h keys v) := by
  unfold dotSearch
  induction keys generalizing v with
  | nil => exact hv
  | cons key keys ih => exact ih (outside_getField hf hv key)

end Objects

section Search
variable {J : Jmespath} (hJ : J.Sound) (hlit : ∀ a, K a → J.literals.length ≤ a)

include hJ hlit

/-- A search neither reaches into `K` nor finds what does not exist. -/
theorem search_fenced (expr : String) {v : Ref Scalar} (hf : Fenced K h) (hv : Outside K h v) :
    Fenced K (J.search expr v h).2 ∧ h.length ≤ (J.search expr v h).2.length ∧
      ∀ w, (J.search expr v h).1 = .ok w → Outside K (J.search expr v h).2 w := by
  obtain ⟨hfound, hexist⟩ := hJ.finds expr v h hf.found_only hv.found_only
  have hle := (hJ.appends expr v h).length_le
  -- the heap against itself, without the cells of `K`
  let R : Nat → Nat → Prop := fun a b => a = b ∧ ¬ K a
  have hlink : Heap.Linked R h h := by
    refine ⟨?_, ?_, fun i => ⟨rfl, fun hK => ?_⟩⟩
    · rintro a b a' b' ⟨rfl, _⟩ ⟨rfl, _⟩
      exact Iff.rfl
    · rintro a b ⟨rfl, hK⟩
      cases hc : h[a]? with
      | none => exact .none
      | some c =>
        exact .some ((hf.apart a c hc hK).rel (fun v hv => hv.paired (fun b hb => ⟨rfl, hb⟩)))
    · exact absurd (hf.below _ hK) (by omega)
  obtain ⟨hresult, hlink'⟩ := hJ.natural expr
    (fun a ha => ⟨rfl, fun hK => absurd (hlit a hK) (Nat.not_le.2 ha)⟩) hlink
    (hv.apart.paired (fun b hb => ⟨rfl, hb⟩))
  have happart (v w : Ref Scalar) (hvw : Ref.Paired R v w) : v.Within (¬ K ·) :=
    hvw.within (fun a b hab => hab.2)
  refine ⟨⟨hfound.found, ?_, fun a hK => (hf.below a hK).trans_le hle⟩, hle, ?_⟩
  · intro a c hc hK
    have hcell := hlink'.cells a a ⟨rfl, hK⟩
    rw [hc] at hcell
    cases hcell with
    | some hrel => exact hrel.all happart
  · intro w hw
    rw [hw] at hresult
    cases hresult with
    | ok hpair => exact Outside.within (hexist w hw).found (happart _ _ hpair)

theorem fences_search (src : Source) {v : Ref Scalar} (hf : Fenced K h) (hv : Outside K h v) :
    Fences K (src.search (pythonObjects J) v) h (fun w h' => Outside K h' w) := by
  cases src with
  | dotPath keys => exact ⟨hf, le_rfl, fun w h' hrun => by
      cases hrun
      exact outside_dotSearch keys hf hv⟩
  | jmespath expr =>
    obtain ⟨hfence, hle, hw⟩ := search_fenced hJ hlit expr hf hv
    cases hs : (pythonObjects J).search expr v h with
    | mk r h' =>
      have hfound : J.search expr v h = (r, h') := hs
      rw [hfound] at hfence hle hw
      cases r with
      | error msg =>
        have hrun : Source.search (pythonObjects J) (.jmespath expr) v h =
            .raised (.jmespath msg) h' := by
          simp only [Source.search, hs]
        unfold Fences
        rw [hrun]
        exact ⟨hfence, hle, fun _ _ hok => nomatch hok⟩
      | ok w =>
        have hrun : Source.search (pythonObjects J) (.jmespath expr) v h = .ok w h' := by
          simp only [Source.search, hs]
        unfold Fences
        rw [hrun]
        refine ⟨hfence, hle, fun w' h'' hok => ?_⟩
        cases hok
        exact hw w rfl

theorem fences_safeSearch (src : NamedSource) {v : Ref Scalar} (hf : Fenced K h)
    (hv : Outside K h v) :
    Fences K (safeSearch (pythonObjects J) src v) h (fun w h' => Outside K h' w) :=
  (fences_search hJ hlit src.source hf hv).attempt (fun _ _ hf' _ hw => fences_pure hf' hw)
    (fun _ _ hf' _ => fences_pure hf' trivial)

theorem fences_predicate (rt : MappingRuntime) (p : Predicate (Ref Scalar)) {v : Ref Scalar}
    (hf : Fenced K h) (hv : Outside K h v) :
    Fences K (evaluatePredicate (pythonObjects J) rt v p) h (fun _ _ => True) := by
  induction p generalizing h with
  | pathExists src =>
    exact (fences_safeSearch hJ hlit src hf hv).bind
      (fun _ _ hf' _ _ => fences_get (fences_pure hf' trivial))
  | equals src literal =>
    exact (fences_safeSearch hJ hlit src hf hv).bind
      (fun _ _ hf' _ _ => fences_get (fences_liftExc hf' (fun _ _ => trivial)))
  | isIn src literals =>
    exact (fences_safeSearch hJ hlit src hf hv).bind
      (fun _ _ hf' _ _ => fences_get (fences_liftExc hf' (fun _ _ => trivial)))
  | negated child ih => exact (ih hf hv).bind (fun _ _ hf' _ _ => fences_pure hf' trivial)

theorem fences_fallbacks (fbs : List NamedSource) {root v : Ref Scalar} (hf : Fenced K h)
    (hroot : Outside K h root) (hv : Outside K h v) :
    Fences K (resolveFallbacks (pythonObjects J) root fbs v) h (fun w h' => Outside K h' w) := by
  induction fbs generalizing h v with
  | nil => exact fences_pure hf hv
  | cons fb fbs ih =>
    unfold resolveFallbacks
    apply fences_get
    split
    · exact (fences_search hJ hlit fb.source hf hroot).bind
        (fun w h' hf' hle hw => ih hf' (hroot.mono hle) hw)
    · exact fences_pure hf hv

end Search

section Casts
variable {J : Jmespath} (rt : MappingRuntime)

theorem fences_scalarCast (f : Shape Scalar (Ref Scalar) → Except Exc Scalar) {v : Ref Scalar}
    (hf : Fenced K h) (hv : Outside K h v) :
    Fences K (scalarCast (pythonObjects J) f v) h (fun w h' => Outside K h' w) := by
  refine fences_look hf hv (fun c _ => ?_)
  refine Fences.bind (Q := fun _ _ => True) (fences_liftExc hf (fun _ _ => trivial)) ?_
  exact fun _ _ hf' _ _ => fences_pure hf' trivial

theorem dedupItems_subset (s : Heap Scalar) (xs : List (Ref Scalar)) (seen : List Scalar) :
    dedupItems (pythonObjects J) s seen xs ⊆ xs := by
  induction xs generalizing seen with
  | nil => exact List.Subset.refl _
  | cons x xs ih =>
    unfold dedupItems
    split
    · split
      · exact List.subset_cons_of_subset x (ih seen)
      · exact List.cons_subset_cons x (ih _)
    · exact List.cons_subset_cons x (ih seen)

theorem all_pair {P : Ref Scalar → Prop} {k k' : String} {v v' : Ref Scalar} (hv : P v) (hv' : P v') :
    (Shape.dict [(k, v), (k', v')] : Shape Scalar (Ref Scalar)).All P :=
  List.forall_mem_cons.2 ⟨hv, List.forall_mem_cons.2 ⟨hv', fun _ hp => absurd hp List.not_mem_nil⟩⟩

theorem all_single {P : Ref Scalar → Prop} {v : Ref Scalar} (hv : P v) :
    (Shape.list [v] : Shape Scalar (Ref Scalar)).All P :=
  List.forall_mem_cons.2 ⟨hv, fun _ hp => absurd hp List.not_mem_nil⟩

theorem fences_mitreText (idx : Nat) (fields : List (String × Ref Scalar)) (key : String)
    (hf : Fenced K h) :
    Fences K (mitreText (pythonObjects J) rt idx fields key) h (fun _ _ => True) := by
  have hrefuse (v : Ref Scalar) (s : Heap Scalar) :
      Fences K (mitreText.refuse (pythonObjects J) rt idx key v s) h (fun _ _ => True) := by
    refine Fences.bind (Q := fun _ _ => True) (fences_liftExc hf (fun _ _ => trivial)) ?_
    exact fun _ _ hf' _ _ => fences_liftExc hf' (fun _ _ => trivial)
  unfold mitreText
  dsimp only
  apply fences_get
  split
  · split
    · exact hrefuse _ _
    · exact fences_pure hf trivial
  · exact hrefuse _ _

/-- A value that a tactic may come to. -/
def OptionOutside (K : Nat → Prop) (r : Option (Ref Scalar)) (h : Heap Scalar) : Prop :=
  ∀ w, r = some w → Outside K h w

theorem fences_mitreTactic (idx : Nat) {v : Ref Scalar} (hf : Fenced K h) (hv : Outside K h v) :
    Fences K (mitreTactic (pythonObjects J) rt idx v) h (OptionOutside K) := by
  refine fences_look hf hv (fun c _ => ?_)
  split
  · exact fences_pure hf (fun w hw => nomatch hw)
  · refine (fences_mitreText rt idx _ _ hf).bind (fun uid _ hf _ _ => ?_)
    refine (fences_mitreText rt idx _ _ hf).bind (fun name _ hf _ _ => ?_)
    refine (fences_new hf (all_pair (outside_scalar K _ _) (outside_scalar K _ _))).bind
      (fun entry _ hf _ hentry => ?_)
    refine (fences_new hf (all_single hentry)).bind (fun tactics _ hf _ htactics => ?_)
    refine (fences_new hf (all_pair htactics (outside_scalar K _ _))).bind (fun out _ hf _ hout => ?_)
    refine fences_pure hf (fun w hw => ?_)
    cases hw
    exact hout
  · exact fences_liftExc hf (fun _ hr => nomatch hr)

theorem fences_mitreItem (idx : Nat) {v : Ref Scalar} (hf : Fenced K h) (hv : Outside K h v) :
    Fences K (mitreItem (pythonObjects J) rt idx v) h (OptionOutside K) := by
  refine fences_look hf hv (fun c hc => ?_)
  cases c with
  | dict fs =>
    dsimp only
    cases hk : fs.lookup "tactic" with
    | none => exact fences_liftExc hf (fun _ hr => nomatch hr)
    | some w => exact fences_mitreTactic rt idx hf (all_lookup hc hk)
  | scalar x => exact fences_liftExc hf (fun _ hr => nomatch hr)
  | list xs => exact fences_liftExc hf (fun _ hr => nomatch hr)

theorem mem_of_mem_zipIdx {xs : List α} {p : α × Nat} (hp : p ∈ xs.zipIdx) : p.1 ∈ xs := by
  have hlook := List.mk_mem_zipIdx_iff_getElem?.1 (show (p.1, p.2) ∈ xs.zipIdx from hp)
  exact List.mem_of_getElem? hlook

theorem fences_mitreTacticToOcsf {v : Ref Scalar} (hf : Fenced K h) (hv : Outside K h v) :
    Fences K (mitreTacticToOcsf (pythonObjects J) rt v) h (fun w h' => Outside K h' w) := by
  refine fences_look hf hv (fun c hc => ?_)
  split
  · exact fences_pure hf trivial
  · rename_i items
    refine (fences_each (Q := OptionOutside K) items.zipIdx hf
      (fun r h' h'' hle hr w hw => (hr w hw).mono hle) (fun p hp h' hf' hle => ?_)).bind
      (fun outs h' hf' _ houts => ?_)
    · exact fences_mitreItem rt p.2 hf' ((hc p.1 (mem_of_mem_zipIdx hp)).mono hle)
    · refine fences_new hf' (fun w hw => ?_)
      exact houts (some w) (List.reduceOption_mem_iff.1 hw) w rfl
  · exact fences_liftExc hf (fun _ hr => nomatch hr)

theorem fences_typeCast (castName : String) {v : Ref Scalar} (hf : Fenced K h)
    (hv : Outside K h v) :
    Fences K (applyTypeCast (pythonObjects J) rt v castName) h (fun w h' => Outside K h' w) := by
  unfold applyTypeCast
  cases typeCasts.lookup castName with
  | none => exact fences_liftExc hf (fun _ hr => nomatch hr)
  | some cast =>
    cases cast with
    | isoToEpoch | epochToIso | toInt | toBool | scoreToPercent | lowercase | uppercase | trim =>
      exact fences_scalarCast _ hf hv
    | toStr =>
      refine fences_look hf hv (fun c _ => ?_)
      split
      · exact fences_liftExc hf (fun _ hr => nomatch hr)
      · apply fences_get
        refine Fences.bind (Q := fun _ _ => True) (fences_liftExc hf (fun _ _ => trivial)) ?_
        exact fun _ _ hf' _ _ => fences_pure hf' trivial
    | toArray =>
      refine fences_look hf hv (fun c _ => ?_)
      split
      · exact fences_new hf (fun w hw => absurd hw List.not_mem_nil)
      · exact fences_pure hf hv
      · exact fences_new hf (all_single hv)
    | dedup =>
      refine fences_look hf hv (fun c hc => ?_)
      split
      · exact fences_pure hf trivial
      · rename_i xs
        apply fences_get
        exact fences_new hf (fun w hw => hc w (dedupItems_subset _ xs [] hw))
      · exact fences_liftExc hf (fun _ hr => nomatch hr)
    | mitreTacticToOcsf => exact fences_mitreTacticToOcsf rt hf hv

end Casts

section Rule
variable {J : Jmespath} (rt : MappingRuntime)

/-- The references outside `K`, each to itself. -/
def Own (K : Nat → Prop) (h : Heap Scalar) : Ref Scalar → Ref Scalar → Prop :=
  Ref.Paired (fun a b => a = b ∧ a < h.length ∧ ¬ K a)

theorem Own.outside {v w : Ref Scalar} (hv : Own K h v w) : Outside K h v :=
  hv.within (fun _ _ hab => hab.2)

theorem Own.mono (hle : h.length ≤ h'.length) (v w : Ref Scalar) (hv : Own K h v w) :
    Own K h' v w :=
  Ref.Paired.mono (fun _ _ hab => ⟨hab.1, hab.2.1.trans_le hle, hab.2.2⟩) hv

theorem option_rel_own {o : Option (Ref Scalar)} (ho : Option.Rel (Own K h) o o) (hv : o = some v) :
    Outside K h v := by
  subst hv
  cases ho with
  | some hown => exact hown.outside

theorem fences_catchOperator {m : Proc (Heap Scalar) Exc α} {Q : α → Heap Scalar → Prop}
    (wrap : String → Exc) (hm : Fences K m h Q) : Fences K (catchOperator rt wrap m) h Q := by
  refine hm.attempt (fun a h' hf' _ hq => fences_pure hf' hq) (fun e h' hf' _ => ?_)
  dsimp only
  split
  · exact fences_raise hf' _
  · exact fences_raise hf' _

theorem fences_castStage (rule : CompiledRule (Ref Scalar)) (stage : String) (cast : Option String)
    (skip : Bool) {v : Ref Scalar} (hf : Fenced K h) (hv : Outside K h v) :
    Fences K (castStage (pythonObjects J) rt rule stage cast skip v) h
      (fun w h' => Outside K h' w) := by
  apply fences_get
  cases cast with
  | none => exact fences_pure hf hv
  | some name =>
    dsimp only
    split
    · exact fences_pure hf hv
    · exact fences_catchOperator rt _ (fences_typeCast rt name hf hv)

theorem fences_valueMapHit {mapping : List (String × Ref Scalar)} {v : Ref Scalar}
    (hf : Fenced K h) (hv : Outside K h v) (hmapping : ∀ p ∈ mapping, Outside K h p.2) :
    Fences K (valueMapHit (pythonObjects J) rt v mapping) h (OptionOutside K) := by
  refine fences_look hf hv (fun c _ => ?_)
  split
  · exact fences_pure hf (fun w hw => nomatch hw)
  · refine fences_pure hf (fun w hw => ?_)
    obtain ⟨p, hp, rfl⟩ := Option.map_eq_some_iff.1 hw
    exact hmapping p (List.mem_of_find?_eq_some hp)
  · refine Fences.bind (Q := fun _ h' => ∀ p ∈ mapping, Outside K h' p.2)
      (fences_liftExc hf (fun _ _ => hmapping)) (fun key h' hf' _ hmapping' => ?_)
    exact fences_pure hf' (fun w hw => all_lookup hmapping' hw)
  · exact fences_raise hf _

variable {rule : CompiledRule (Ref Scalar)}

theorem RuleRel.default_outside (hr : RuleRel (Own K h) rule rule) {v : Ref Scalar}
    (hv : Outside K h v) : Outside K h (rule.default.getD v) := by
  have hdefault := hr.default
  cases hd : rule.default with
  | none => exact hv
  | some w => exact option_rel_own hdefault hd

theorem RuleRel.mapping_outside (hr : RuleRel (Own K h) rule rule)
    {mapping : List (String × Ref Scalar)} (hm : rule.valueMap = some mapping) :
    ∀ p ∈ mapping, Outside K h p.2 := by
  have hmap := hr.valueMap
  rw [hm] at hmap
  cases hmap with
  | some hfields => exact forall₂_left (fun p q hpq => hpq.2.outside) hfields

theorem fences_valueMapStage (hr : RuleRel (Own K h) rule rule) (usedDefault usedIngest : Bool)
    {v : Ref Scalar} (hf : Fenced K h) (hv : Outside K h v) :
    Fences K (valueMapStage (pythonObjects J) rt rule usedDefault usedIngest v) h
      (fun w h' => Outside K h' w) := by
  apply fences_get
  split
  · exact fences_pure hf hv
  · rename_i mapping hmapping
    split
    · exact fences_pure hf hv
    · refine fences_catchOperator rt _ ?_
      refine (fences_valueMapHit rt hf hv (hr.mapping_outside hmapping)).bind
        (fun hit h' hf' hle hhit => fences_pure hf' ?_)
      cases hit with
      | some w => exact hhit w rfl
      | none =>
        refine Outside.mono hle ?_
        change Outside K h (if usedIngest = true then v else rule.default.getD v)
        split
        · exact hv
        · exact hr.default_outside hv

theorem ruleStart_outside (hr : RuleRel (Own K h) rule rule) (ingest : Option Int)
    {found : Ref Scalar} (hfound : Outside K h found) :
    Outside K h (ruleStart (pythonObjects J) rule ingest found h).value := by
  unfold ruleStart
  dsimp only
  split
  · split
    · exact outside_scalar K h _
    · exact hr.default_outside hfound
  · split
    · exact outside_scalar K h _
    · exact hfound

theorem fences_ruleChain (hr : RuleRel (Own K h) rule rule) (start : RuleStart (Ref Scalar))
    (hf : Fenced K h) (hv : Outside K h start.value) :
    Fences K (ruleChain (pythonObjects J) rt rule start) h (fun w h' => Outside K h' w) := by
  refine (fences_castStage rt rule _ _ _ hf hv).bind (fun v h₁ hf₁ hle hv₁ => ?_)
  apply fences_get
  split
  · exact fences_raise hf₁ _
  · refine (fences_valueMapStage rt (hr.mono (Own.mono hle)) _ _ hf₁ hv₁).bind
      (fun w h₂ hf₂ _ hw => ?_)
    exact fences_castStage rt rule _ _ _ hf₂ hw

variable (hJ : J.Sound) (hlit : ∀ a, K a → J.literals.length ≤ a) {raw ext : Ref Scalar}

include hJ hlit

theorem fences_resolveValue (hr : RuleRel (Own K h) rule rule) (hf : Fenced K h)
    (hraw : Outside K h raw) (hext : Outside K h ext) :
    Fences K (resolveValue (pythonObjects J) rt rule raw ext) h (fun w h' => Outside K h' w) := by
  unfold resolveValue
  split
  · rename_i v hconst
    exact fences_pure hf (option_rel_own hr.const hconst)
  · exact fences_raise hf _
  · have hroot : Outside K h (if rule.readsExtracted then ext else raw) := by
      split
      · exact hext
      · exact hraw
    refine (fences_search hJ hlit _ hf hroot).bind (fun v h' hf' hle hv => ?_)
    exact fences_fallbacks hJ hlit rule.fallbacks hf' (hroot.mono hle) hv

theorem fences_ruleValue (hr : RuleRel (Own K h) rule rule) (ingest : Option Int)
    (hf : Fenced K h) (hraw : Outside K h raw) (hext : Outside K h ext) :
    Fences K (ruleValue (pythonObjects J) rt rule raw ext ingest) h
      (fun o h' => Outside K h' o.value) := by
  have hresolve : Fences K (resolveRule (pythonObjects J) rt rule raw ext) h
      (fun w h' => Outside K h' w) :=
    (fences_resolveValue rt hJ hlit hr hf hraw hext).attempt (fun _ _ hf' _ hw => fences_pure hf' hw)
      (fun _ _ hf' _ => fences_raise hf' _)
  refine hresolve.bind (fun found h₁ hf₁ hle hfound => ?_)
  apply fences_get
  have hr₁ := hr.mono (Own.mono hle)
  refine (fences_ruleChain rt hr₁ _ hf₁ (ruleStart_outside hr₁ ingest hfound)).bind
    (fun v h₂ hf₂ _ hv => fences_pure hf₂ hv)

theorem fences_ruleGate (rule : CompiledRule (Ref Scalar)) (hf : Fenced K h)
    (hraw : Outside K h raw) (hext : Outside K h ext) :
    Fences K (ruleGate (pythonObjects J) rt rule raw ext) h (fun _ _ => True) := by
  unfold ruleGate
  split
  · exact fences_pure hf trivial
  · refine fences_predicate hJ hlit rt _ hf ?_
    unfold ruleRoot
    split
    · exact hext
    · exact hraw

end Rule

section ArrayBuilder
variable {J : Jmespath} {raw ext : Ref Scalar}

theorem itemElements_outside (item : CompiledArrayBuilderItem) {v : Ref Scalar} (hf : Fenced K h)
    (hv : Outside K h v) : ∀ w ∈ itemElements (pythonObjects J) h item v, Outside K h w := by
  have hshape : ((pythonObjects J).shape h v).All (Outside K h) := hf.shape hv
  have hone : ∀ w ∈ [v], Outside K h w :=
    List.forall_mem_cons.2 ⟨hv, fun _ hw => absurd hw List.not_mem_nil⟩
  have hnone : ∀ w ∈ ([] : List (Ref Scalar)), Outside K h w :=
    fun _ hw => absurd hw List.not_mem_nil
  unfold itemElements
  split
  · split
    · exact hnone
    · rename_i xs hxs
      rw [hxs] at hshape
      split
      · exact fun w hw => hshape w (List.mem_filter.1 hw).1
      · exact hshape
    · exact hone
  · split
    · exact hnone
    · exact hone

def ObservableOutside (K : Nat → Prop) (obs : Observable (Ref Scalar)) (h : Heap Scalar) : Prop :=
  ∀ p ∈ obs, Outside K h p.2

theorem observable_outside (item : CompiledArrayBuilderItem) {v : Ref Scalar} (hv : Outside K h v) :
    ObservableOutside K (observable (pythonObjects J) item v) h := by
  intro p hp
  simp only [observable, List.mem_cons, List.not_mem_nil, or_false] at hp
  rcases hp with rfl | rfl | rfl | rfl
  · trivial
  · trivial
  · trivial
  · exact hv

theorem dedupObservables_subset (s : Heap Scalar) (names : List String)
    (found : List (Observable (Ref Scalar))) {seen : List (List Scalar)}
    {kept : List (Observable (Ref Scalar))}
    (hkept : dedupObservables (pythonObjects J) s names seen found = .ok kept) : kept ⊆ found := by
  induction found generalizing seen kept with
  | nil =>
    cases hkept
    exact List.Subset.refl _
  | cons obs rest ih =>
    unfold dedupObservables at hkept
    obtain ⟨key, _, hkept⟩ := Except.bind_eq_ok hkept
    split at hkept
    · exact List.subset_cons_of_subset obs (ih hkept)
    · obtain ⟨others, hothers, hkept⟩ := Except.bind_eq_ok hkept
      cases hkept
      exact List.cons_subset_cons obs (ih hothers)

theorem dedupBy_subset (s : Heap Scalar) (names : List String)
    (found : List (Observable (Ref Scalar))) {kept : List (Observable (Ref Scalar))}
    (hkept : dedupBy (pythonObjects J) s names found = .ok kept) : kept ⊆ found := by
  unfold dedupBy at hkept
  split at hkept
  · cases hkept
    exact List.Subset.refl _
  · exact dedupObservables_subset s names found hkept

variable (hJ : J.Sound) (hlit : ∀ a, K a → J.literals.length ≤ a)

include hJ hlit

theorem fences_itemObservables (item : CompiledArrayBuilderItem) (hf : Fenced K h)
    (hraw : Outside K h raw) (hext : Outside K h ext) :
    Fences K (itemObservables (pythonObjects J) raw ext item) h
      (fun found h' => ∀ obs ∈ found, ObservableOutside K obs h') := by
  have hroot : Outside K h (if item.source.isExtracted then ext else raw) := by
    split
    · exact hext
    · exact hraw
  refine (fences_search hJ hlit item.source.source hf hroot).bind (fun v h' hf' _ hv => ?_)
  apply fences_get
  refine fences_pure hf' (List.forall_mem_map.2 (fun w hw => ?_))
  exact observable_outside item (itemElements_outside item hf' hv w hw)

theorem fences_arrayBuilder (rule : CompiledArrayBuilderRule) (hf : Fenced K h)
    (hraw : Outside K h raw) (hext : Outside K h ext) :
    Fences K (applyArrayBuilder (pythonObjects J) rule raw ext) h
      (fun w h' => Outside K h' w) := by
  have hobs : ∀ (obs : Observable (Ref Scalar)) (h' h'' : Heap Scalar), h'.length ≤ h''.length →
      ObservableOutside K obs h' → ObservableOutside K obs h'' :=
    fun obs h' h'' hle hobs p hp => (hobs p hp).mono hle
  refine (fences_each (Q := fun found h' => ∀ obs ∈ found, ObservableOutside K obs h') rule.items hf
    (fun found h' h'' hle hfound o ho => hobs o h' h'' hle (hfound o ho))
    (fun item _ h' hf' hle => fences_itemObservables hJ hlit item hf' (hraw.mono hle)
      (hext.mono hle))).bind (fun found h₁ hf₁ _ hfound => ?_)
  apply fences_get
  refine Fences.bind (Q := fun kept h' => ∀ obs ∈ kept, ObservableOutside K obs h')
    (fences_liftExc hf₁ (fun kept hkept => ?_)) (fun kept h₂ hf₂ _ hkept => ?_)
  · intro obs hin
    have hok : dedupBy (pythonObjects J) h₁ rule.dedupBy found.flatten = .ok kept := by
      cases hrun : dedupBy (pythonObjects J) h₁ rule.dedupBy found.flatten with
      | error e =>
        rw [hrun] at hkept
        cases hkept
      | ok kept' =>
        rw [hrun] at hkept
        cases hkept
        rfl
    obtain ⟨l, hl, hobs⟩ := List.mem_flatten.1 (dedupBy_subset h₁ _ _ hok hin)
    exact hfound l hl obs hobs
  · refine (fences_each (Q := fun w h' => Outside K h' w) kept hf₂
      (fun w h' h'' hle hw => hw.mono hle)
      (fun obs hin h' hf' hle =>
        fences_new (c := .dict obs) hf' (hobs obs h₂ h' hle (hkept obs hin)))).bind
      (fun made h₃ hf₃ _ hmade => fences_new hf₃ hmade)

theorem fences_evalRule (rt : MappingRuntime) (ingest : Option Int) {rule : AnyRule (Ref Scalar)}
    (hr : AnyRuleRel (Own K h) rule rule) (hf : Fenced K h) (hraw : Outside K h raw)
    (hext : Outside K h ext) :
    Fences K (evalRule (pythonObjects J) rt raw ext ingest rule) h
      (fun o h' => ∀ out, o = some out → Outside K h' out.value) := by
  cases hr with
  | arrayBuilder r =>
    refine (fences_arrayBuilder hJ hlit r hf hraw hext).bind (fun v h' hf' _ hv => ?_)
    refine fences_pure hf' (fun out hout => ?_)
    cases hout
    exact hv
  | scalar hr =>
    refine (fences_ruleGate rt hJ hlit _ hf hraw hext).bind (fun b h₁ hf₁ hle _ => ?_)
    split
    · refine (fences_ruleValue rt hJ hlit (hr.mono (Own.mono hle)) ingest hf₁ (hraw.mono hle)
        (hext.mono hle)).bind (fun o h₂ hf₂ _ ho => ?_)
      refine fences_pure hf₂ (fun out hout => ?_)
      cases hout
      exact ho
    · exact fences_pure hf₁ (fun out hout => nomatch hout)

end ArrayBuilder

section Preprocess
variable {J : Jmespath} (rt : MappingRuntime) {raw ext : Ref Scalar}

theorem fences_jsonParse (tolerant : Bool) {v : Ref Scalar} (hf : Fenced K h)
    (hv : Outside K h v) :
    Fences K (jsonParse (pythonObjects J) rt tolerant v) h (fun w h' => Outside K h' w) := by
  refine fences_look hf hv (fun c _ => ?_)
  split
  · exact fences_pure hf trivial
  · split
    · exact fences_raise hf _
    · split
      · exact fences_raise hf _
      · split
        · rename_i j _
          obtain ⟨hfence, hle, hw⟩ := fenced_load (J := J) j hf
          exact ⟨hfence, hle, fun w h' hrun => by
            cases hrun
            exact hw⟩
        · split
          · exact fences_pure hf trivial
          · exact fences_liftExc hf (fun _ hr => nomatch hr)
  · split
    · exact fences_pure hf trivial
    · exact fences_liftExc hf (fun _ hr => nomatch hr)

theorem fences_write (hf : Fenced K h) (key : String) {v : Ref Scalar} (hv : Outside K h v) :
    Fences K ((pythonObjects J).write ext [key] v) h (fun _ _ => True) := by
  have hlen := Heap.length_setItem h ext key v
  exact ⟨hf.setItem hv key, hlen.ge, fun _ _ _ => trivial⟩

variable (hJ : J.Sound) (hlit : ∀ a, K a → J.literals.length ≤ a)

include hJ hlit

theorem fences_preprocessOp (consumed : List String) (op : CompiledPreprocessOp) (hf : Fenced K h)
    (hraw : Outside K h raw) :
    Fences K (preprocessOp (pythonObjects J) rt raw ext consumed op) h (fun _ _ => True) := by
  have hbody : Fences K (preprocessBody (pythonObjects J) rt raw ext consumed op) h
      (fun _ _ => True) := by
    refine (fences_search hJ hlit op.source.source hf hraw).bind (fun v h₁ hf₁ _ hv => ?_)
    refine (fences_jsonParse rt op.tolerant hf₁ hv).bind (fun w h₂ hf₂ _ hw => ?_)
    refine (fences_write hf₂ op.target hw).bind (fun _ h₃ hf₃ _ _ => ?_)
    exact fences_get (fences_pure hf₃ trivial)
  refine hbody.attempt (fun _ _ hf' _ _ => fences_pure hf' trivial) (fun e h' hf' _ => ?_)
  split
  · rename_i heq
    cases heq
  · exact fences_raise hf' _
  · split
    · exact (fences_write hf' op.target (outside_scalar K h' .null)).bind
        (fun _ _ hf'' _ _ => fences_pure hf'' trivial)
    · exact fences_raise hf' _
  · exact fences_raise hf' _

theorem fences_preprocess (ops : List CompiledPreprocessOp) (consumed : List String)
    (hf : Fenced K h) (hraw : Outside K h raw) :
    Fences K (Proc.fold (preprocessOp (pythonObjects J) rt raw ext) consumed ops) h
      (fun _ _ => True) := by
  induction ops generalizing h consumed with
  | nil => exact fences_pure hf trivial
  | cons op ops ih =>
    exact (fences_preprocessOp rt hJ hlit consumed op hf hraw).bind
      (fun consumed' h' hf' hle _ => ih consumed' hf' (hraw.mono hle))

end Preprocess

end CentralOps
