import Mathlib.Logic.Function.Basic
import CentralOps.Routing.Verdict

namespace CentralOps
set_option autoImplicit true

/-- The settings that switch reduction by suppression on. -/
structure SuppressFlags where
  reductionSuppressEnabled : Bool
  costMeteringEnabled : Bool

/-- `_suppress_routes`: the routes of a cycle that may suppress. -/
def suppressRoutes (flags : SuppressFlags) (routes : List CompiledRoute) : List CompiledRoute :=
  if flags.reductionSuppressEnabled && flags.costMeteringEnabled then
    routes.filter (fun r => decide (r.suppressKey.getD "" ≠ "") && decide (0 < r.suppressAllow) &&
      !r.protectDetection)
  else []

section Signature
variable (rt : Runtime) (labels : Obj)

/-- The label values a `suppress_key` names; a missing label counts as empty. -/
def signatureParts (suppressKey : String) : List String :=
  (((suppressKey.toList.splitOn ',').map pyStrip).filter (fun k => k ≠ [])).map
    (fun k => rt.str ((labels.lookup (String.ofList k)).getD (.str "")))

/-- `none` when no label of the key resolves. -/
def suppressSignature (suppressKey : String) : Option String :=
  let parts := signatureParts rt labels suppressKey
  if parts.all (fun p => p = "") then none
  else some (String.ofList ((hexdigest (rt.sha256 ("|".intercalate parts))).toList.take 16))

end Signature

def suppressKeyName (routeId signature : String) : String :=
  "cops:suppress:" ++ routeId ++ ":" ++ signature

/-- The suppression counters with their expiries, and whether Redis answers. -/
structure SuppressStore where
  reachable : Bool := true
  count : String → Nat
  ttl : String → Option Int := fun _ => none

/-- `(keep, count)` with the new counters; `none` is a Redis error. -/
def claimSuppress (store : SuppressStore) (routeId signature : String) (allow windowS : Int) :
    Option ((Bool × Nat) × SuppressStore) :=
  if allow ≤ 0 then some ((true, 0), store)
  else if !store.reachable then none
  else
    let key := suppressKeyName routeId signature
    let count := store.count key + 1
    let ttl := if count = 1 then Function.update store.ttl key (some (max windowS 1))
      else store.ttl
    some ((decide ((count : Int) ≤ allow), count),
      { store with count := Function.update store.count key count, ttl := ttl })

def withSuppressCount (envelope : Obj) (count : Nat) : Obj :=
  Assoc.set "_centralops"
    (.obj (Assoc.set "suppress_count" (.int count) (eventLabels envelope))) envelope

structure SuppressOutcome where
  suppressedBy : Option String
  envelope : Obj
  store : SuppressStore

def maybeSuppress (rt : Runtime) (store : SuppressStore) (envelope : Obj) :
    List CompiledRoute → SuppressOutcome
  | [] => ⟨none, envelope, store⟩
  | r :: rest =>
    let labels := eventLabels envelope
    if !matchesCondition rt r.condition labels then maybeSuppress rt store envelope rest
    else
      match suppressSignature rt labels (r.suppressKey.getD "") with
      | none => ⟨none, envelope, store⟩
      | some sig =>
        match claimSuppress store r.id sig r.suppressAllow r.suppressWindowS with
        | none => ⟨none, envelope, store⟩
        | some ((true, count), store) => ⟨none, withSuppressCount envelope count, store⟩
        | some ((false, _), store) => ⟨some r.id, envelope, store⟩

def suppressStep (rt : Runtime) (flags : SuppressFlags) (routes : List CompiledRoute)
    (store : SuppressStore) (envelope : Obj) : SuppressOutcome :=
  maybeSuppress rt store envelope (suppressRoutes flags routes)

section Decider
variable (rt : Runtime) (store : SuppressStore) (envelope : Obj)

/-- The first route whose condition holds decides. -/
def deciderOf (candidates : List CompiledRoute) : Option CompiledRoute :=
  candidates.find? (fun r => matchesCondition rt r.condition (eventLabels envelope))

/-- Its signature resolves, Redis answers, and the window's allowance is used up. -/
def Exhausted (r : CompiledRoute) : Prop :=
  ∃ sig, suppressSignature rt (eventLabels envelope) (r.suppressKey.getD "") = some sig ∧
    store.reachable = true ∧ r.suppressAllow ≤ store.count (suppressKeyName r.id sig)

theorem claimSuppress_discards_iff (hallow : 0 < allow) (routeId sig : String) (windowS : Int) :
    (∃ n store', claimSuppress store routeId sig allow windowS = some ((false, n), store')) ↔
      store.reachable = true ∧ allow ≤ store.count (suppressKeyName routeId sig) := by
  have hpos : ¬ allow ≤ 0 := not_le.2 hallow
  rw [claimSuppress, if_neg hpos]
  cases store.reachable with
  | false => simp
  | true =>
    have hlt : ¬ ((store.count (suppressKeyName routeId sig) + 1 : Nat) : Int) ≤ allow ↔
        allow ≤ store.count (suppressKeyName routeId sig) := by omega
    rw [← hlt]
    simp only [Bool.not_true, Bool.false_eq_true, if_false, Option.some.injEq, Prod.mk.injEq,
      decide_eq_false_iff_not, true_and]
    constructor
    · rintro ⟨_, _, ⟨hover, -⟩, -⟩
      exact hover
    · intro hover
      exact ⟨_, _, ⟨hover, rfl⟩, rfl⟩

theorem maybeSuppress_discards_iff (candidates : List CompiledRoute)
    (hallow : ∀ r ∈ candidates, 0 < r.suppressAllow) (rid : String) :
    (maybeSuppress rt store envelope candidates).suppressedBy = some rid ↔
      ∃ r, deciderOf rt envelope candidates = some r ∧ Exhausted rt store envelope r ∧
        r.id = rid := by
  induction candidates with
  | nil => simp [maybeSuppress, deciderOf]
  | cons r rest ih =>
    have ih' := ih (fun s hs => hallow s (List.mem_cons_of_mem r hs))
    by_cases hm : matchesCondition rt r.condition (eventLabels envelope) = true
    · have hdec : deciderOf rt envelope (r :: rest) = some r := by simp [deciderOf, hm]
      have hclaim := fun sig => claimSuppress_discards_iff store
        (hallow r List.mem_cons_self) r.id sig r.suppressWindowS
      rw [hdec]
      simp only [maybeSuppress, hm, Bool.not_true, Bool.false_eq_true, if_false]
      cases hsig : suppressSignature rt (eventLabels envelope) (r.suppressKey.getD "") with
      | none => simp [Exhausted, hsig]
      | some sig =>
        have hex : Exhausted rt store envelope r ↔ store.reachable = true ∧
            r.suppressAllow ≤ store.count (suppressKeyName r.id sig) := by
          simp [Exhausted, hsig]
        rw [← hclaim sig] at hex
        dsimp only
        split
        · next hnone => simp [hex, hnone]
        · next n store' hkeep => simp [hex, hkeep]
        · next n store' hdrop => simp [hex, hdrop]
    · have hdec : deciderOf rt envelope (r :: rest) = deciderOf rt envelope rest := by
        simp [deciderOf, hm]
      rw [hdec, ← ih']
      simp [maybeSuppress, hm]

end Decider

theorem suppressRoutes_allow (h : r ∈ suppressRoutes flags routes) : 0 < r.suppressAllow := by
  unfold suppressRoutes at h
  split at h
  · have hf := (List.mem_filter.1 h).2
    simp only [Bool.and_eq_true, decide_eq_true_eq] at hf
    exact hf.1.2
  · cases h

section Starvation
variable (rt : Runtime) (flags : SuppressFlags) (routes : List CompiledRoute)

/-- A discarded event is one that no protected route assigns, and the route that decided is
one the evaluation applies. The labels are those at routing time: the steps after suppression
may have added to the ones it saw. -/
def SuppressionSafe (store : SuppressStore) (envelope routedLabels : Obj) : Prop :=
  ∀ rid, (suppressStep rt flags routes store envelope).suppressedBy = some rid →
    (∀ d r, (d, r) ∈ (evaluateEvent rt routedLabels (orderRoutes routes)).assignments →
      r.protectDetection = false) ∧
    rid ∈ (evaluateEvent rt routedLabels (orderRoutes routes)).matchedRouteIds

/-- The routes applied at routing time include one of this id, and none that is protected and
has a destination unless the event is dropped. -/
def LeavesDetection (routedLabels : Obj) (rid : String) : Prop :=
  let applied := appliedRoutes rt routedLabels (orderRoutes routes)
  (∃ s ∈ applied, s.id = rid) ∧
    (hasDrop applied = true ∨ ∀ s ∈ applied, s.protectDetection = true → s.destinationIds = [])

theorem leavesDetection_iff (routedLabels : Obj) (rid : String) :
    LeavesDetection rt routes routedLabels rid ↔
      (∀ d r, (d, r) ∈ (evaluateEvent rt routedLabels (orderRoutes routes)).assignments →
        r.protectDetection = false) ∧
      rid ∈ (evaluateEvent rt routedLabels (orderRoutes routes)).matchedRouteIds := by
  rw [evaluateEvent_matched, evaluateEvent_assignments, List.mem_dedup, List.mem_map, and_comm]
  apply and_congr Iff.rfl
  cases hasDrop (appliedRoutes rt routedLabels (orderRoutes routes)) with
  | true => simp
  | false =>
    simp only [Bool.false_eq_true, false_or, if_false, mem_assignmentsOf]
    constructor
    · intro h d r hr
      by_contra hp
      rw [Bool.not_eq_false] at hp
      have hnil := h r hr.1 hp
      rw [hnil] at hr
      exact absurd hr.2 List.not_mem_nil
    · intro h s hs hp
      by_contra hne
      obtain ⟨d, hd⟩ := List.exists_mem_of_ne_nil _ hne
      have hf := h d s ⟨hs, hd⟩
      rw [hp] at hf
      cases hf

end Starvation

/-- A noisy route that suppresses per vendor, and a protected route over the same events. -/
def noisyAndDetection : List CompiledRoute :=
  [{ id := "noisy", priority := 1, condition := [], destinationIds := ["archive"],
     isFinal := false, protectDetection := false, suppressKey := some "vendor",
     suppressAllow := 1 },
   { id := "detect", priority := 2, condition := [], destinationIds := ["siem"],
     isFinal := true }]

def vendorEvent : Obj := [("_centralops", .obj [("vendor", .str "acme")])]

end CentralOps
