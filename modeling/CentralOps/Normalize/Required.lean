import CentralOps.Lib.Fails
import CentralOps.Lib.Turns
import CentralOps.Normalize.Engine

namespace CentralOps
set_option autoImplicit true

open Proc

section Turns
variable {σ ν : Type} (S : Objects σ ν) (rt : MappingRuntime) (compiled : CompiledRules ν) (raw : ν)
  (ingestTimeEpoch : Option Int)

/-- Every rule that the call comes to, with the extracted values and the state there, meets `H`. -/
def EveryTurn (H : ν → AnyRule ν → σ → Prop) (s : σ) : Prop :=
  let output := S.make (.dict []) s
  let extracted := S.make (.dict []) output.2
  ∀ consumed s', fold (preprocessOp S rt raw extracted.1) [] compiled.preprocessOps extracted.2 =
      .ok consumed s' →
    FoldAlways (applyMappingRule S rt raw extracted.1 ingestTimeEpoch)
      (fun _ rule s => H extracted.1 rule s) ⟨output.1, consumed, [], []⟩ compiled.rules s'

variable {S rt compiled raw ingestTimeEpoch}

theorem EveryTurn.mono {H H' : ν → AnyRule ν → σ → Prop} {s : σ}
    (himp : ∀ ext rule s, H ext rule s → H' ext rule s)
    (h : EveryTurn S rt compiled raw ingestTimeEpoch H s) :
    EveryTurn S rt compiled raw ingestTimeEpoch H' s :=
  fun consumed s' hpre => (h consumed s' hpre).mono (fun _ rule s => himp _ rule s)

theorem EveryTurn.and {H H' : ν → AnyRule ν → σ → Prop} {s : σ}
    (h : EveryTurn S rt compiled raw ingestTimeEpoch H s)
    (h' : EveryTurn S rt compiled raw ingestTimeEpoch H' s) :
    EveryTurn S rt compiled raw ingestTimeEpoch (fun ext rule s => H ext rule s ∧ H' ext rule s) s :=
  fun consumed s' hpre => (h consumed s' hpre).and (h' consumed s' hpre)

theorem everyTurn_raised (S : Objects σ ν) (rt : MappingRuntime) (compiled : CompiledRules ν)
    (raw : ν) (ingestTimeEpoch : Option Int) (s : σ) :
    EveryTurn S rt compiled raw ingestTimeEpoch
      (fun ext rule s₁ => ∀ e s', evalRule S rt raw ext ingestTimeEpoch rule s₁ = .raised e s' →
        applyCompiled S rt compiled raw ingestTimeEpoch s = .raised e s') s := by
  intro consumed s' hpre
  apply (foldAlways_raised _ compiled.rules s').mono
  intro p rule s₁ hfold e s₂ hraised
  have hrules := hfold e s₂ (bind_raised hraised _)
  exact (bind_ok hpre _).trans (bind_raised hrules _)

end Turns

section Chain
variable {σ ν : Type} (S : Objects σ ν) (rt : MappingRuntime)

def CompiledRule.unchecked (rule : CompiledRule ν) : CompiledRule ν := { rule with required := false }

/-- A required rule is not skipped, and its whole chain comes to `None`. -/
def ChainNull (raw extracted : ν) (ingestTimeEpoch : Option Int) (rule : CompiledRule ν) (s : σ) :
    Prop :=
  rule.required = true ∧ ∃ s₁, ruleGate S rt rule raw extracted s = .ok true s₁ ∧
    ∃ o s₂, ruleValue S rt rule.unchecked raw extracted ingestTimeEpoch s₁ = .ok o s₂ ∧
      S.isNone s₂ o.value = true

structure RequiredTurn (raw extracted : ν) (ingestTimeEpoch : Option Int)
    (call : Ending σ Exc (ApplyResult ν)) (rule : CompiledRule ν) (s : σ) : Prop where
  written : rule.required = true → ∀ o s',
    evalRule S rt raw extracted ingestTimeEpoch (.scalar rule) s = .ok (some o) s' →
      S.isNone s' o.value = false
  refused : ChainNull S rt raw extracted ingestTimeEpoch rule s →
    ∃ s', evalRule S rt raw extracted ingestTimeEpoch (.scalar rule) s =
        .raised (.requiredField rule.target) s' ∧
      call = .raised (.requiredField rule.target) s'

def AnyRule.IfScalar (H : CompiledRule ν → Prop) : AnyRule ν → Prop
  | .scalar rule => H rule
  | .arrayBuilder _ => True

/-- The call writes a value, or raises, for each required rule that it comes to and does not skip. -/
def RequiredMeansPresent (compiled : CompiledRules ν) (raw : ν) (ingestTimeEpoch : Option Int)
    (s : σ) : Prop :=
  EveryTurn S rt compiled raw ingestTimeEpoch (fun ext rule s₁ => rule.IfScalar (fun rule =>
    RequiredTurn S rt raw ext ingestTimeEpoch
      (applyCompiled S rt compiled raw ingestTimeEpoch s) rule s₁)) s

/-- The `value_map` has `None` for the value, or misses it where the default is `None`. -/
def MapsToNull (rule : CompiledRule ν) (start : RuleStart ν) (v : ν) (s : σ) : Prop :=
  start.usedDefault = false ∧ S.isNone s v = false ∧ ∃ mapping, rule.valueMap = some mapping ∧
    ∃ hit s', valueMapHit S rt v mapping s = .ok hit s' ∧
      S.isNone s' (hit.getD (if start.usedIngest then v else rule.default.getD v)) = true

/-- A required rule has found a value that its `value_map` takes to `None`. -/
def LosesValue (raw extracted : ν) (ingestTimeEpoch : Option Int) (rule : CompiledRule ν) (s : σ) :
    Prop :=
  rule.required = true ∧ ∃ s₁, ruleGate S rt rule raw extracted s = .ok true s₁ ∧
    ∃ found s₂, resolveRule S rt rule raw extracted s₁ = .ok found s₂ ∧
      ∃ v s₃, castStage S rt rule "pre_cast" rule.preCast
          (ruleStart S rule ingestTimeEpoch found s₂).usedDefault
          (ruleStart S rule ingestTimeEpoch found s₂).value s₂ = .ok v s₃ ∧
        MapsToNull S rt rule (ruleStart S rule ingestTimeEpoch found s₂) v s₃

end Chain

/-- Objects whose new ones look as they were made. -/
structure Objects.Faithful {σ ν : Type} (S : Objects σ ν) : Prop where
  scalar : ∀ s x, S.shape s (S.scalar x) = .scalar x
  list : ∀ s xs, S.shape (S.make (.list xs) s).2 (S.make (.list xs) s).1 = .list xs

theorem pythonObjects_faithful (J : Jmespath) : (pythonObjects J).Faithful where
  scalar _ _ := rfl
  list s xs := by
    change Heap.shape (s ++ [.list xs]) (.addr s.length) = .list xs
    rw [Heap.shape, List.getElem?_concat_length]
    rfl

section Casts
variable {σ ν : Type} {S : Objects σ ν} (rt : MappingRuntime)

theorem spec_look_bind {P : σ → Prop} {v : ν} {f : Shape Scalar ν → Proc σ Exc α}
    {Q : α → σ → Prop} {R : σ → Prop} (h : ∀ c, Spec (fun s => P s ∧ S.shape s v = c) (f c) Q R) :
    Spec P (S.look v >>= f) Q R :=
  fun s hs => h (S.shape s v) s ⟨hs, rfl⟩

variable (S) in
/-- The result of a procedure that returns is not `None`. -/
def GivesValue (m : Proc σ Exc ν) (P : σ → Prop) : Prop :=
  Spec P m (fun w s => S.isNone s w = false) (fun _ => True)

theorem GivesValue.ok {m : Proc σ Exc ν} {P : σ → Prop} (h : GivesValue S m P) {s s' : σ} {w : ν}
    (hs : P s) (hrun : m s = .ok w s') : S.isNone s' w = false := by
  have hm := h s hs
  rw [hrun] at hm
  exact hm

theorem gives_new_list (hS : S.Faithful) (P : σ → Prop) (xs : List ν) :
    GivesValue S (S.new (.list xs)) P := by
  intro s _
  change S.isNone (S.make (.list xs) s).2 (S.make (.list xs) s).1 = false
  rw [Objects.isNone, hS.list]

theorem gives_scalarCast (hS : S.Faithful) {f : Shape Scalar ν → Except Exc Scalar} {v : ν}
    (hf : ∀ c, f c = .ok .null → c = .scalar .null) :
    GivesValue S (scalarCast S f v) (fun s => S.isNone s v = false) := by
  apply spec_look_bind
  intro c
  cases hc : f c with
  | error e => exact fun s _ => trivial
  | ok x =>
    rintro s ⟨hv, rfl⟩
    change S.isNone s (S.scalar x) = false
    rw [Objects.isNone, hS.scalar]
    cases x with
    | null =>
      rw [Objects.isNone, hf _ hc] at hv
      cases hv
    | _ => rfl

theorem map_ne_null {r : Except Exc α} {f : α → Scalar} (hf : ∀ a, f a ≠ .null) :
    r.map f ≠ .ok .null := by
  cases r with
  | error e => nofun
  | ok a => exact fun h => hf a (Except.ok.inj h)

theorem isoToEpoch_value (c : Shape Scalar ν) : isoToEpoch rt c ≠ .ok .null := by
  cases c with
  | scalar x =>
    cases x with
    | int n =>
      rw [isoToEpoch]
      exact map_ne_null nofun
    | float x =>
      rw [isoToEpoch]
      exact map_ne_null nofun
    | str t =>
      rw [isoToEpoch]
      cases rt.fromisoformat (isoUtc t) with
      | none => nofun
      | some millis => nofun
    | _ => nofun
  | _ => nofun

theorem epochToIso_value (c : Shape Scalar ν) : epochToIso rt c ≠ .ok .null := by
  cases c with
  | scalar x =>
    cases x with
    | int n =>
      rw [epochToIso]
      exact map_ne_null nofun
    | float x =>
      rw [epochToIso]
      exact map_ne_null nofun
    | str t =>
      rw [epochToIso]
      cases rt.floatOf t with
      | none => nofun
      | some x => exact map_ne_null nofun
    | _ => nofun
  | _ => nofun

theorem toInt_value (c : Shape Scalar ν) : toInt rt c ≠ .ok .null := by
  cases c with
  | scalar x =>
    cases x with
    | float x =>
      rw [toInt]
      exact map_ne_null nofun
    | str t =>
      rw [toInt]
      cases rt.int t with
      | none => nofun
      | some n => nofun
    | _ => nofun
  | _ => nofun

theorem toBool_value (c : Shape Scalar ν) : toBool rt c ≠ .ok .null := by
  cases c with
  | scalar x =>
    cases x with
    | str t =>
      rw [toBool]
      cases parseBool rt t with
      | none => nofun
      | some b => nofun
    | _ => nofun
  | _ => nofun

theorem scoreToPercent_value (c : Shape Scalar ν) (h : scoreToPercent rt c = .ok .null) :
    c = .scalar .null := by
  cases c with
  | scalar x =>
    cases x with
    | null => rfl
    | int n =>
      rw [scoreToPercent] at h
      split at h
      · cases h
      · cases htext : uncaught (Scalar.repr rt (.int n)) with
        | error e =>
          rw [htext] at h
          cases h
        | ok text =>
          rw [htext] at h
          cases h
    | float x =>
      cases x with
      | finite q =>
        rw [scoreToPercent] at h
        split at h
        · cases h
        · cases h
      | _ => cases h
    | _ => cases h
  | _ => cases h

theorem mapText_value (name : String) (f : String → String) (c : Shape Scalar ν)
    (h : mapText name f c = .ok .null) : c = .scalar .null := by
  cases c with
  | scalar x =>
    cases x with
    | null => rfl
    | _ => cases h
  | _ => cases h

theorem not_none_of_shape {s : σ} {v : ν} (hv : S.isNone s v = false)
    (hshape : S.shape s v = .scalar .null) : False := by
  rw [Objects.isNone, hshape] at hv
  cases hv

theorem gives_toStr (hS : S.Faithful) (v : ν) :
    GivesValue S (toStr S rt v) (fun s => S.isNone s v = false) := by
  have htext : GivesValue S (do
      let s ← Proc.get
      let text ← liftExc (uncaught (S.str rt s v))
      pure (S.scalar (.str text))) (fun _ => True) := by
    apply Spec.get_bind
    intro s₀ _
    cases uncaught (S.str rt s₀ v) with
    | error e => exact fun s _ => trivial
    | ok text =>
      intro s _
      change S.isNone s (S.scalar (.str text)) = false
      rw [Objects.isNone, hS.scalar]
  apply spec_look_bind
  rintro c s ⟨hv, hc⟩
  cases c with
  | scalar x =>
    cases x with
    | null => exact (not_none_of_shape hv hc).elim
    | _ => exact htext s trivial
  | _ => exact htext s trivial

theorem gives_toArray (hS : S.Faithful) (v : ν) :
    GivesValue S (toArray S v) (fun s => S.isNone s v = false) := by
  apply spec_look_bind
  rintro c s ⟨hv, hc⟩
  cases c with
  | scalar x =>
    cases x with
    | null => exact (not_none_of_shape hv hc).elim
    | _ => exact gives_new_list hS (fun _ => True) [v] s trivial
  | list xs => exact hv
  | dict fields => exact gives_new_list hS (fun _ => True) [v] s trivial

theorem gives_dedup (hS : S.Faithful) (v : ν) :
    GivesValue S (dedup S v) (fun s => S.isNone s v = false) := by
  apply spec_look_bind
  rintro c s ⟨hv, hc⟩
  cases c with
  | scalar x =>
    cases x with
    | null => exact (not_none_of_shape hv hc).elim
    | _ => trivial
  | list xs => exact gives_new_list hS (fun _ => True) (dedupItems S s [] xs) s trivial
  | dict fields => trivial

theorem gives_mitre (hS : S.Faithful) (v : ν) :
    GivesValue S (mitreTacticToOcsf S rt v) (fun s => S.isNone s v = false) := by
  apply spec_look_bind
  rintro c s ⟨hv, hc⟩
  cases c with
  | scalar x =>
    cases x with
    | null => exact (not_none_of_shape hv hc).elim
    | _ => trivial
  | list items =>
    have hrest : GivesValue S (Proc.each (fun p => mitreItem S rt p.2 p.1) items.zipIdx >>=
        fun outs => S.new (.list outs.reduceOption)) (fun _ => True) := by
      apply Spec.bind (Q := fun _ _ => True)
      · intro s _
        cases (Proc.each (fun p => mitreItem S rt p.2 p.1) items.zipIdx) s with
        | _ => trivial
      · exact fun outs => gives_new_list hS _ outs.reduceOption
    exact hrest s trivial
  | dict fields => trivial

/-- No cast makes `None` of a value. -/
theorem gives_run (hS : S.Faithful) (cast : TypeCast) (v : ν) :
    GivesValue S (cast.run S rt v) (fun s => S.isNone s v = false) := by
  cases cast with
  | isoToEpoch => exact gives_scalarCast hS fun c h => absurd h (isoToEpoch_value rt c)
  | epochToIso => exact gives_scalarCast hS fun c h => absurd h (epochToIso_value rt c)
  | toStr => exact gives_toStr rt hS v
  | toInt => exact gives_scalarCast hS fun c h => absurd h (toInt_value rt c)
  | toBool => exact gives_scalarCast hS fun c h => absurd h (toBool_value rt c)
  | scoreToPercent => exact gives_scalarCast hS (scoreToPercent_value rt)
  | lowercase => exact gives_scalarCast hS (mapText_value _ _)
  | uppercase => exact gives_scalarCast hS (mapText_value _ _)
  | trim => exact gives_scalarCast hS (mapText_value _ _)
  | toArray => exact gives_toArray hS v
  | dedup => exact gives_dedup hS v
  | mitreTacticToOcsf => exact gives_mitre rt hS v

theorem gives_applyTypeCast (hS : S.Faithful) (v : ν) (name : String) :
    GivesValue S (applyTypeCast S rt v name) (fun s => S.isNone s v = false) := by
  unfold applyTypeCast
  cases typeCasts.lookup name with
  | none => exact fun s _ => trivial
  | some cast => exact gives_run rt hS cast v

theorem gives_catchOperator {m : Proc σ Exc ν} {P : σ → Prop} (wrap : String → Exc)
    (h : GivesValue S m P) : GivesValue S (catchOperator rt wrap m) P := by
  intro s hs
  have hm := h s hs
  cases hrun : m s with
  | ok w s' =>
    rw [hrun] at hm
    have hcaught : catchOperator rt wrap m s = .ok w s' :=
      bind_ok (attempt_ok hrun) _
    rw [hcaught]
    exact hm
  | raised e s' =>
    have hcaught : catchOperator rt wrap m s =
        (if e.isOperator then Proc.raise (wrap (e.text rt)) else Proc.raise e : Proc σ Exc ν) s' :=
      bind_ok (attempt_raised hrun) _
    rw [hcaught]
    cases e.isOperator with
    | true => trivial
    | false => trivial
  | crashed s' =>
    have hcaught : catchOperator rt wrap m s = .crashed s' :=
      bind_crashed (attempt_crashed hrun) _
    rw [hcaught]
    trivial

theorem catchOperator_eq_ok {m : Proc σ Exc α} {wrap : String → Exc} {s s' : σ} {a : α}
    (h : catchOperator rt wrap m s = .ok a s') : m s = .ok a s' := by
  obtain ⟨r, s₁, hattempt, hafter⟩ := bind_eq_ok h
  cases hrun : m s with
  | ok b s₂ =>
    rw [attempt_ok hrun] at hattempt
    cases hattempt
    exact hafter
  | raised e s₂ =>
    rw [attempt_raised hrun] at hattempt
    cases hattempt
    revert hafter
    change (if e.isOperator then Proc.raise (wrap (e.text rt)) else Proc.raise e : Proc σ Exc α) s₁ =
      .ok a s' → _
    cases e.isOperator with
    | true => nofun
    | false => nofun
  | crashed s₂ =>
    rw [attempt_crashed hrun] at hattempt
    cases hattempt

theorem gives_castStage (hS : S.Faithful) (rule : CompiledRule ν) (stage : String)
    (cast : Option String) (skip : Bool) (v : ν) :
    GivesValue S (castStage S rt rule stage cast skip v) (fun s => S.isNone s v = false) := by
  apply Spec.get_bind
  rintro s₀ hv
  cases cast with
  | none => exact Spec.pure fun s hs => hs ▸ hv
  | some name =>
    apply Spec.ite
    · exact fun _ => Spec.pure fun s hs => hs ▸ hv
    · intro _
      apply (gives_catchOperator rt _ (gives_applyTypeCast rt hS v name)).pre
      exact fun s hs => hs ▸ hv

theorem castStage_none (rule : CompiledRule ν) (stage : String) (cast : Option String) (skip : Bool)
    {v : ν} {s : σ} (hv : S.isNone s v = true) :
    castStage S rt rule stage cast skip v s = .ok v s := by
  cases cast with
  | none => rfl
  | some name =>
    have hskip : (name = "" || S.isNone s v || skip) = true := by simp [hv]
    exact congrFun (if_pos hskip) s

end Casts

section Turn
variable {σ ν : Type} {S : Objects σ ν} {rt : MappingRuntime} {rule : CompiledRule ν}
  {start : RuleStart ν}

variable (S rt) in
/-- What comes after the `required` check. -/
def afterCheck (rule : CompiledRule ν) (start : RuleStart ν) (v : ν) : Proc σ Exc ν := do
  let w ← valueMapStage S rt rule start.usedDefault start.usedIngest v
  castStage S rt rule "type_cast" rule.typeCast false w

/-- A hit, or what a miss leaves, is what `value_map` gives. -/
theorem valueMapStage_hit {v : ν} {s s' : σ} {mapping : List (String × ν)} {hit : Option ν}
    (hmapping : rule.valueMap = some mapping) (hv : S.isNone s v = false)
    (hdefault : start.usedDefault = false) (hhit : valueMapHit S rt v mapping s = .ok hit s') :
    valueMapStage S rt rule start.usedDefault start.usedIngest v s =
      .ok (hit.getD (if start.usedIngest then v else rule.default.getD v)) s' := by
  unfold valueMapStage
  rw [get_bind_apply, hmapping]
  have hgo : ¬ (S.isNone s v || start.usedDefault) = true := by simp [hv, hdefault]
  refine (congrFun (if_neg hgo) s).trans ?_
  have hfound : (do
      let hit ← valueMapHit S rt v mapping
      pure (hit.getD (if start.usedIngest then v else rule.default.getD v)) : Proc σ Exc ν) s =
        .ok (hit.getD (if start.usedIngest then v else rule.default.getD v)) s' :=
    bind_ok hhit _
  exact bind_ok (attempt_ok hfound) _

/-- After the check a value is lost where `value_map` loses it, and nowhere else. -/
theorem null_of_maps {v : ν} {s : σ} (h : MapsToNull S rt rule start v s) :
    ∃ w s', afterCheck S rt rule start v s = .ok w s' ∧ S.isNone s' w = true := by
  obtain ⟨hdefault, hv, mapping, hmapping, hit, s', hhit, hnone⟩ := h
  have hmap := valueMapStage_hit hmapping hv hdefault hhit
  refine ⟨_, s', (bind_ok hmap _).trans (castStage_none rt rule _ _ _ hnone), hnone⟩

theorem maps_of_null (hS : S.Faithful) {v w : ν} {s s' : σ} (hv : S.isNone s v = false)
    (hrun : afterCheck S rt rule start v s = .ok w s') (hw : S.isNone s' w = true) :
    MapsToNull S rt rule start v s := by
  obtain ⟨u, s₁, hmap, hcast⟩ := bind_eq_ok hrun
  have hu : S.isNone s₁ u = true := by
    cases hu : S.isNone s₁ u with
    | true => rfl
    | false =>
      have hvalue := (gives_castStage rt hS rule "type_cast" rule.typeCast false u).ok hu hcast
      rw [hw] at hvalue
      cases hvalue
  have hkept : ¬ (pure v : Proc σ Exc ν) s = .ok u s₁ := by
    intro hkept
    cases hkept
    rw [hv] at hu
    cases hu
  unfold valueMapStage at hmap
  rw [get_bind_apply] at hmap
  cases hmapping : rule.valueMap with
  | none =>
    rw [hmapping] at hmap
    exact absurd hmap hkept
  | some mapping =>
    rw [hmapping] at hmap
    cases hdefault : start.usedDefault with
    | true => exact absurd ((congrFun (if_pos (by simp [hdefault])) s).symm.trans hmap) hkept
    | false =>
      have hgo : ¬ (S.isNone s v || start.usedDefault) = true := by simp [hv, hdefault]
      have hfound := catchOperator_eq_ok rt ((congrFun (if_neg hgo) s).symm.trans hmap)
      obtain ⟨hit, s₂, hhit, hu'⟩ := bind_eq_ok hfound
      cases hu'
      exact ⟨hdefault, hv, mapping, hmapping, hit, s₁, hhit, hu⟩

section Check
variable {raw ext : ν} {ingest : Option Int} {s s₁ s₂ s₃ : σ} {found v : ν}

theorem ruleChain_go (hpre : castStage S rt rule "pre_cast" rule.preCast start.usedDefault
    start.value s = .ok v s₁) (hgo : (S.isNone s₁ v && rule.required) = false) :
    ruleChain S rt rule start s = afterCheck S rt rule start v s₁ := by
  refine (bind_ok hpre _).trans ?_
  exact congrFun (if_neg (by rw [hgo]; exact Bool.false_ne_true)) s₁

theorem ruleChain_refuse (hpre : castStage S rt rule "pre_cast" rule.preCast start.usedDefault
    start.value s = .ok v s₁) (hstop : (S.isNone s₁ v && rule.required) = true) :
    ruleChain S rt rule start s = .raised (.requiredField rule.target) s₁ := by
  refine (bind_ok hpre _).trans ?_
  exact congrFun (if_pos hstop) s₁

/-- A chain that returns has passed the check. -/
theorem ruleValue_eq_ok {o : RuleOutcome ν}
    (h : ruleValue S rt rule raw ext ingest s = .ok o s₁) :
    ∃ found s₂, resolveRule S rt rule raw ext s = .ok found s₂ ∧
      ∃ v s₃, castStage S rt rule "pre_cast" rule.preCast
          (ruleStart S rule ingest found s₂).usedDefault (ruleStart S rule ingest found s₂).value s₂ =
            .ok v s₃ ∧
        (S.isNone s₃ v && rule.required) = false ∧
        afterCheck S rt rule (ruleStart S rule ingest found s₂) v s₃ = .ok o.value s₁ := by
  obtain ⟨found, s₂, hfound, h⟩ := bind_eq_ok h
  have hchain : (ruleChain S rt rule (ruleStart S rule ingest found s₂) >>= fun v =>
      pure ⟨v, !S.isNone s₂ found, (ruleStart S rule ingest found s₂).usedDefault,
        (ruleStart S rule ingest found s₂).usedIngest⟩) s₂ = .ok o s₁ := h
  obtain ⟨w, s₄, hchain, ho⟩ := bind_eq_ok hchain
  cases ho
  obtain ⟨v, s₃, hpre, hrest⟩ := bind_eq_ok hchain
  refine ⟨found, s₂, hfound, v, s₃, hpre, ?_⟩
  cases hcheck : S.isNone s₃ v && rule.required with
  | true =>
    rw [ruleChain_refuse hpre hcheck] at hchain
    cases hchain
  | false =>
    rw [ruleChain_go hpre hcheck] at hchain
    exact ⟨rfl, hchain⟩

theorem evalRule_open (hgate : ruleGate S rt rule raw ext s = .ok true s₁) :
    evalRule S rt raw ext ingest (.scalar rule) s =
      (ruleValue S rt rule raw ext ingest >>= fun o => pure (some o)) s₁ :=
  bind_ok hgate _

theorem evalRule_eq_ok {o : RuleOutcome ν}
    (h : evalRule S rt raw ext ingest (.scalar rule) s = .ok (some o) s₂) :
    ∃ s₁, ruleGate S rt rule raw ext s = .ok true s₁ ∧
      ruleValue S rt rule raw ext ingest s₁ = .ok o s₂ := by
  obtain ⟨gate, s₁, hgate, h⟩ := bind_eq_ok h
  cases gate with
  | false => cases h
  | true =>
    obtain ⟨o', s₃, hvalue, ho⟩ := bind_eq_ok h
    cases ho
    exact ⟨s₁, hgate, hvalue⟩

/-- A required rule whose value is lost after the check writes `None`. -/
theorem writes_null_of_loses (h : LosesValue S rt raw ext ingest rule s) :
    ∃ o s', evalRule S rt raw ext ingest (.scalar rule) s = .ok (some o) s' ∧
      S.isNone s' o.value = true := by
  obtain ⟨-, s₁, hgate, found, s₂, hfound, v, s₃, hpre, hmaps⟩ := h
  obtain ⟨w, s₄, hafter, hw⟩ := null_of_maps hmaps
  have hchain := ruleChain_go hpre (by rw [hmaps.2.1, Bool.false_and])
  rw [hafter] at hchain
  have hvalue : ruleValue S rt rule raw ext ingest s₁ =
      .ok ⟨w, !S.isNone s₂ found, (ruleStart S rule ingest found s₂).usedDefault,
        (ruleStart S rule ingest found s₂).usedIngest⟩ s₄ :=
    (bind_ok hfound _).trans (bind_ok hchain _)
  exact ⟨_, s₄, (evalRule_open hgate).trans (bind_ok hvalue _), hw⟩

theorem written_of_keeps (hS : S.Faithful) (h : ¬ LosesValue S rt raw ext ingest rule s)
    (hrequired : rule.required = true) {o : RuleOutcome ν}
    (hrun : evalRule S rt raw ext ingest (.scalar rule) s = .ok (some o) s₂) :
    S.isNone s₂ o.value = false := by
  obtain ⟨s₁, hgate, hvalue⟩ := evalRule_eq_ok hrun
  obtain ⟨found, s₃, hfound, v, s₄, hpre, hcheck, hafter⟩ := ruleValue_eq_ok hvalue
  rw [hrequired, Bool.and_true] at hcheck
  cases hw : S.isNone s₂ o.value with
  | false => rfl
  | true =>
    exact absurd ⟨hrequired, s₁, hgate, found, s₃, hfound, v, s₄, hpre,
      maps_of_null hS hcheck hafter hw⟩ h

theorem refused_of_keeps (hS : S.Faithful) (h : ¬ LosesValue S rt raw ext ingest rule s)
    (hnull : ChainNull S rt raw ext ingest rule s) :
    ∃ s', evalRule S rt raw ext ingest (.scalar rule) s = .raised (.requiredField rule.target) s' := by
  obtain ⟨hrequired, s₁, hgate, o, s₂, hvalue, hw⟩ := hnull
  obtain ⟨found, s₃, hfound, v, s₄, hpre, -, hafter⟩ := ruleValue_eq_ok hvalue
  cases hv : S.isNone s₄ v with
  | false =>
    exact absurd ⟨hrequired, s₁, hgate, found, s₃, hfound, v, s₄, hpre,
      maps_of_null hS hv hafter hw⟩ h
  | true =>
    have hstop : (S.isNone s₄ v && rule.required) = true := by
      rw [hv, hrequired]
      rfl
    have hpre' : castStage S rt rule "pre_cast" rule.preCast
        (ruleStart S rule ingest found s₃).usedDefault (ruleStart S rule ingest found s₃).value s₃ =
          .ok v s₄ := hpre
    have hchain := ruleChain_refuse hpre' hstop
    have hraised : ruleValue S rt rule raw ext ingest s₁ =
        .raised (.requiredField rule.target) s₄ :=
      (bind_ok hfound _).trans (bind_raised hchain _)
    exact ⟨s₄, (evalRule_open hgate).trans (bind_raised hraised _)⟩

theorem requiredTurn_iff (hS : S.Faithful) {call : Ending σ Exc (ApplyResult ν)}
    (hcall : ∀ e s', evalRule S rt raw ext ingest (.scalar rule) s = .raised e s' →
      call = .raised e s') :
    RequiredTurn S rt raw ext ingest call rule s ↔ ¬ LosesValue S rt raw ext ingest rule s := by
  constructor
  · intro hturn hloses
    obtain ⟨o, s', hrun, hnull⟩ := writes_null_of_loses hloses
    rw [hturn.written hloses.1 o s' hrun] at hnull
    cases hnull
  · intro hkeeps
    constructor
    · exact fun hrequired o s' hrun => written_of_keeps hS hkeeps hrequired hrun
    · intro hnull
      obtain ⟨s', hraised⟩ := refused_of_keeps hS hkeeps hnull
      exact ⟨s', hraised, hcall _ s' hraised⟩

end Check
end Turn

/-- Required means present, in a call, just when no `value_map` takes the value of a required rule
to `None`. -/
theorem required_present_iff (rt : MappingRuntime) (J : Jmespath)
    (compiled : CompiledRules (Ref Scalar)) (raw : Ref Scalar) (ingestTimeEpoch : Option Int)
    (h : Heap Scalar) :
    RequiredMeansPresent (pythonObjects J) rt compiled raw ingestTimeEpoch h ↔
      EveryTurn (pythonObjects J) rt compiled raw ingestTimeEpoch (fun ext rule s =>
        rule.IfScalar (fun rule =>
          ¬ LosesValue (pythonObjects J) rt raw ext ingestTimeEpoch rule s)) h := by
  have hraised := everyTurn_raised (pythonObjects J) rt compiled raw ingestTimeEpoch h
  constructor
  · intro hpresent
    apply (hraised.and hpresent).mono
    rintro ext rule s ⟨hcall, hturn⟩
    cases rule with
    | arrayBuilder rule => trivial
    | scalar rule => exact (requiredTurn_iff (pythonObjects_faithful J) hcall).1 hturn
  · intro hkeeps
    apply (hraised.and hkeeps).mono
    rintro ext rule s ⟨hcall, hkeep⟩
    cases rule with
    | arrayBuilder rule => trivial
    | scalar rule => exact (requiredTurn_iff (pythonObjects_faithful J) hcall).2 hkeep

/-- A required severity, for which `unknown` is no severity. -/
def nullMapRules : Json :=
  .list [.obj [("target", .str "normalized.severity_id"), ("source", .str "severity"),
    ("required", .bool true), ("value_map", .obj [("unknown", .null)])]]

def nullMapRule : CompiledRule (Ref Scalar) where
  target := "normalized.severity_id"
  targetPath := ["normalized", "severity_id"]
  source := some ⟨"severity", .dotPath ["severity"]⟩
  const := none
  default := none
  valueMap := some [("unknown", .scalar .null)]
  preCast := none
  typeCast := none
  required := true
  fallbacks := []
  whenPredicate := none
  defaultFromIngest := false

def nullMapCompiled : CompiledRules (Ref Scalar) := ⟨[], [.scalar nullMapRule], []⟩

def nullMapHeap : Ref Scalar × Heap Scalar :=
  (pythonObjects .none).load (.obj [("severity", .str "unknown")])
    ((pythonObjects .none).load nullMapRules []).2

theorem exists_of_then {σ : Type} {m : Proc σ Exc α} {P : α → σ → Prop} {s : σ} (h : Then m P s) :
    ∃ a s', m s = .ok a s' ∧ P a s' := by
  unfold Then at h
  cases hm : m s with
  | ok a s' =>
    rw [hm] at h
    exact ⟨a, s', rfl, h⟩
  | raised e s' =>
    rw [hm] at h
    exact h.elim
  | crashed s' =>
    rw [hm] at h
    exact h.elim

/-- The event is accepted, with a required severity of `None`. -/
theorem required_severity_null :
    compileRules .ascii ((pythonObjects .none).shape ((pythonObjects .none).load nullMapRules []).2)
        ((pythonObjects .none).load nullMapRules []).1 none = some nullMapCompiled ∧
      ¬ RequiredMeansPresent (pythonObjects .none) .ascii nullMapCompiled nullMapHeap.1 none
        nullMapHeap.2 := by
  refine ⟨rfl, ?_⟩
  intro h
  have hturn := (h [] _ rfl).1
  let S := pythonObjects .none
  let output := S.make (.dict []) nullMapHeap.2
  let extracted := S.make (.dict []) output.2
  have hnull : Then (evalRule S .ascii nullMapHeap.1 extracted.1 none (.scalar nullMapRule))
      (fun o s => o.any (fun o => S.isNone s o.value) = true) extracted.2 := by
    decide +kernel
  obtain ⟨o, s', hrun, hvalue⟩ := exists_of_then hnull
  cases o with
  | none => cases hvalue
  | some o =>
    have hwritten := hturn.written rfl o s' hrun
    rw [Option.any_some, hwritten] at hvalue
    cases hvalue

end CentralOps
