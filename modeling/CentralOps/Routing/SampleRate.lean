import Mathlib.Tactic.Ring
import CentralOps.Routing.Guards

namespace CentralOps
set_option autoImplicit true

/-- The events that a copy stands for: the inverse of its `sample_rate` label, one without it. -/
def inverseRate (copy : Obj) : Rat :=
  match (eventLabels copy).lookup "sample_rate" with
  | some (.float (.finite q)) => q⁻¹
  | _ => 1

/-- The evaluation of the labels gets as far as `r`. -/
def reachesRoute (rt : Runtime) (labels : Obj) (r : CompiledRoute) : List CompiledRoute → Bool
  | [] => false
  | e :: rest =>
    if e.id = r.id then true else !(applies rt labels e && e.stops) && reachesRoute rt labels r rest

def bucketOf (rt : Runtime) (env : Obj) : Nat :=
  canaryBucket rt (labelEventId rt (eventLabels env))

/-- The condition of a route holds of an event. -/
def covers (rt : Runtime) (r : CompiledRoute) (env : Obj) : Bool :=
  matchesCondition rt r.condition (eventLabels env)

/-- A batch and the routes it meets, with sampling enabled. Destinations belong to one route each,
and of the events that a condition matches every bucket holds equally many. -/
structure SampledBatch (rt : Runtime) where
  routes : List CompiledRoute
  batch : List Obj
  cfg : SamplingConfig
  measureDropBytes : Bool
  enabled : cfg.enabled = true
  distinct : (routes.map CompiledRoute.id).Nodup
  disjoint : ∀ r ∈ routes, ∀ r' ∈ routes, ∀ d ∈ r.destinationIds, d ∈ r'.destinationIds → r = r'
  uniform : ∀ r ∈ routes, ∀ b < 100, ∀ b' < 100,
    batch.countP (fun env => covers rt r env && decide (bucketOf rt env = b)) =
      batch.countP (fun env => covers rt r env && decide (bucketOf rt env = b'))

namespace SampledBatch
variable {rt : Runtime} (s : SampledBatch rt)

def args : RouteArgs where
  routes := s.routes
  sampling := some s.cfg
  measureDropBytes := s.measureDropBytes

/-- The copies that a destination receives. -/
def delivered (d : String) : List Obj := (routeBatch rt s.args s.batch).subBatches.bucket d

/-- The number of events to which `evaluate_event` applies a route. -/
def applied (r : CompiledRoute) : Nat :=
  s.batch.countP fun env =>
    decide (r.id ∈ (evaluateEvent rt (eventLabels env) s.args.ordered).matchedRouteIds)

/-- An unprotected route with a sampling percentage and a canary. -/
structure Samples (r : CompiledRoute) : Prop where
  unprotected : (r.protectDetection && s.cfg.protectDetectionEnforced) = false
  sample_pos : 0 < r.samplePercent
  sample_lt : r.samplePercent < 100
  canary_pos : 0 < r.canaryPercent
  canary_le : r.canaryPercent ≤ 100

/-- The copies of every sampled route add up to the events it was applied to. -/
def Rescales : Prop :=
  ∀ r ∈ s.routes, s.Samples r → ∀ d ∈ r.destinationIds,
    ((s.delivered d).map inverseRate).sum = s.applied r

/-- The evaluation of an event comes to `r` and its condition holds. -/
def comesTo (r : CompiledRoute) (env : Obj) : Bool :=
  r.enabled && covers rt r env && reachesRoute rt (eventLabels env) r s.args.ordered

def killed (env : Obj) : Bool :=
  s.args.ordered.any fun e => decide (e.action = .drop) && applies rt (eventLabels env) e &&
    reachesRoute rt (eventLabels env) e s.args.ordered

/-- Of the events that come to a route within its canary fraction, the sampling percentage is kept
and not dropped later. -/
def Balanced (r : CompiledRoute) : Prop :=
  100 * (s.batch.countP fun env => s.comesTo r env && !s.killed env &&
      decide ((bucketOf rt env : Int) < min r.canaryPercent r.samplePercent) : Int) =
    r.samplePercent * s.batch.countP fun env => s.comesTo r env &&
      decide ((bucketOf rt env : Int) < r.canaryPercent)

/-- Every event that the condition matches comes to the route, and none is dropped. -/
def Unhindered (r : CompiledRoute) : Prop :=
  ∀ env ∈ s.batch, covers rt r env = true → s.comesTo r env = true ∧ s.killed env = false

end SampledBatch

section Evaluation
variable {rt : Runtime} {labels : Obj}

theorem canaryPass_eq (rt : Runtime) (percent : Int) (eventId : String) :
    canaryPass rt percent eventId = decide ((canaryBucket rt eventId : Int) < percent) := by
  have hbucket : canaryBucket rt eventId < 100 := Nat.mod_lt _ (by decide)
  unfold canaryPass
  split
  · simp
    omega
  · split
    · simp
      omega
    · rfl

theorem mem_appliedRoutes_iff {routes : List CompiledRoute}
    (hids : (routes.map CompiledRoute.id).Nodup) :
    r ∈ appliedRoutes rt labels routes ↔
      r ∈ routes ∧ applies rt labels r = true ∧ reachesRoute rt labels r routes = true := by
  induction routes with
  | nil => simp [appliedRoutes]
  | cons e routes ih =>
    obtain ⟨hnew, hids⟩ := List.nodup_cons.1 hids
    have ih := ih hids
    have hne : r ∈ routes → e.id ≠ r.id := fun hr he =>
      hnew (List.mem_map.2 ⟨r, hr, he.symm⟩)
    have hself : r = e → e.id = r.id := fun h => h ▸ rfl
    rw [appliedRoutes, reachesRoute, List.mem_cons]
    by_cases happlies : applies rt labels e = true
    · by_cases hstops : e.stops = true
      · simp only [happlies, hstops, Bool.not_true, Bool.false_eq_true, if_false, if_true,
          Bool.and_self, Bool.false_and, List.mem_singleton]
        constructor
        · rintro rfl
          exact ⟨.inl rfl, happlies, by simp⟩
        · rintro ⟨rfl | hr, -, hreaches⟩
          · rfl
          · rw [if_neg (hne hr)] at hreaches
            cases hreaches
      · simp only [happlies, hstops, Bool.not_true, Bool.false_eq_true, if_false, Bool.not_false,
          Bool.and_false, Bool.true_and, List.mem_cons, ih]
        constructor
        · rintro (rfl | ⟨hr, happ, hreaches⟩)
          · exact ⟨.inl rfl, happlies, by simp⟩
          · exact ⟨.inr hr, happ, by rw [if_neg (hne hr)]; exact hreaches⟩
        · rintro ⟨rfl | hr, happ, hreaches⟩
          · exact .inl rfl
          · rw [if_neg (hne hr)] at hreaches
            exact .inr ⟨hr, happ, hreaches⟩
    · rw [Bool.not_eq_true] at happlies
      simp only [happlies, Bool.not_false, if_true, Bool.false_and, Bool.true_and, ih]
      constructor
      · rintro ⟨hr, happ, hreaches⟩
        exact ⟨.inr hr, happ, by rw [if_neg (hne hr)]; exact hreaches⟩
      · rintro ⟨rfl | hr, happ, hreaches⟩
        · rw [happlies] at happ
          cases happ
        · rw [if_neg (hne hr)] at hreaches
          exact ⟨hr, happ, hreaches⟩

theorem evaluateEvent_hasDrop (routes : List CompiledRoute) :
    (evaluateEvent rt labels routes).dropped = hasDrop (appliedRoutes rt labels routes) :=
  (evaluateLoop_applied routes [] [] []).1

end Evaluation

theorem bucket_eq_filterMap (rt : Runtime) (args : RouteArgs) (batch : List Obj) (d : String) :
    (routeBatch rt args batch).subBatches.bucket d =
      batch.filterMap (fun env => copyFor rt args env d) := by
  induction batch using List.reverseRecOn with
  | nil => rfl
  | append_singleton pre env ih =>
    have hsends := (routeEvent_extends rt args env (routeBatch rt args pre)).sends
    rw [routeBatch_append_one, hsends, Dict.bucket_pushAll, ih, values_sendsOf,
      List.filterMap_append]
    cases hcopy : copyFor rt args env d with
    | none => simp [hcopy]
    | some x => simp [hcopy]

theorem sum_filterMap_const {g : Obj → Rat} {c : Rat} (p : Obj → Bool) (f : Obj → Obj)
    (hg : ∀ env, g (f env) = c) (batch : List Obj) :
    ((batch.filterMap (fun env => if p env then some (f env) else none)).map g).sum =
      batch.countP p * c := by
  induction batch with
  | nil => simp
  | cons env batch ih =>
    cases hp : p env with
    | false => simp [hp, ih]
    | true =>
      simp only [List.countP_cons_of_pos hp, List.filterMap_cons, hp, if_true, List.map_cons,
        List.sum_cons, ih, hg, Nat.cast_add, Nat.cast_one]
      ring

namespace SampledBatch
variable {rt : Runtime} (s : SampledBatch rt) {r : CompiledRoute} {d : String}

theorem mem_ordered : r ∈ s.args.ordered ↔ r ∈ s.routes := List.mem_insertionSort _

theorem ordered_distinct : (s.args.ordered.map CompiledRoute.id).Nodup :=
  ((List.perm_insertionSort routeLe s.routes).map _).nodup_iff.2 s.distinct

theorem applies_eq (env : Obj) :
    applies rt (eventLabels env) r =
      (r.enabled && covers rt r env && decide ((bucketOf rt env : Int) < r.canaryPercent)) := by
  rw [applies, canaryPass_eq]
  rfl

theorem mem_applied_iff (hr : r ∈ s.routes) (env : Obj) :
    r ∈ appliedRoutes rt (eventLabels env) s.args.ordered ↔
      s.comesTo r env = true ∧ (bucketOf rt env : Int) < r.canaryPercent := by
  rw [mem_appliedRoutes_iff s.ordered_distinct, applies_eq, comesTo, s.mem_ordered]
  simp only [Bool.and_eq_true, decide_eq_true_eq]
  tauto

theorem dropped_eq_killed (env : Obj) : (decisionOf rt s.args env).dropped = s.killed env := by
  have hdrop := @evaluateEvent_hasDrop rt (eventLabels env) s.args.ordered
  rw [decisionOf, hdrop, Bool.eq_iff_iff, hasDrop, killed, List.any_eq_true, List.any_eq_true]
  simp only [mem_appliedRoutes_iff s.ordered_distinct, Bool.and_eq_true, decide_eq_true_eq]
  constructor
  · rintro ⟨e, ⟨he, happlies, hreaches⟩, hdrops⟩
    exact ⟨e, he, ⟨hdrops, happlies⟩, hreaches⟩
  · rintro ⟨e, he, ⟨hdrops, happlies⟩, hreaches⟩
    exact ⟨e, ⟨he, happlies, hreaches⟩, hdrops⟩

theorem applied_eq (hr : r ∈ s.routes) :
    s.applied r = s.batch.countP fun env => s.comesTo r env &&
      decide ((bucketOf rt env : Int) < r.canaryPercent) := by
  apply List.countP_congr
  intro env _
  rw [decide_eq_true_eq, mem_matchedRouteIds, Bool.and_eq_true, decide_eq_true_eq,
    ← s.mem_applied_iff hr]
  constructor
  · rintro ⟨e, he, hid⟩
    have hmem := s.mem_ordered.1 (of_mem_appliedRoutes he).1
    rwa [← List.inj_on_of_nodup_map s.distinct hmem hr hid]
  · intro happlied
    exact ⟨r, happlied, rfl⟩

/-- Only its own route assigns a destination. -/
theorem winnerOf_iff (hr : r ∈ s.routes) (hd : d ∈ r.destinationIds) (env : Obj)
    (halive : (decisionOf rt s.args env).dropped = false) :
    winnerOf rt s.args env d = some w ↔
      w = r ∧ r ∈ appliedRoutes rt (eventLabels env) s.args.ordered := by
  have hassigned : ∀ w, (d, w) ∈ (decisionOf rt s.args env).assignments ↔
      w ∈ appliedRoutes rt (eventLabels env) s.args.ordered ∧ d ∈ w.destinationIds := by
    intro w
    rw [decisionOf] at halive
    rw [decisionOf, evaluateEvent_assignments, ← evaluateEvent_hasDrop, halive,
      if_neg Bool.false_ne_true, mem_assignmentsOf]
  have honly : ∀ w, winnerOf rt s.args env d = some w → w = r ∧
      r ∈ appliedRoutes rt (eventLabels env) s.args.ordered := by
    intro w hw
    obtain ⟨happlied, hdw⟩ := (hassigned w).1 (Assoc.mem_values.1 (Dict.preferred_mem hw))
    have hmem := s.mem_ordered.1 (of_mem_appliedRoutes happlied).1
    obtain rfl := s.disjoint r hr w hmem d hd hdw
    exact ⟨rfl, happlied⟩
  constructor
  · intro hw
    exact honly w hw
  · rintro ⟨rfl, happlied⟩
    obtain ⟨w', hw⟩ := (winnerOf_isSome rt s.args env).1
      ((mem_destinations rt s.args env).2 ⟨w, (hassigned w).2 ⟨happlied, hd⟩⟩)
    rw [hw, (honly w' hw).1]

theorem sampledOutOf_eq (hs : s.Samples r) (env : Obj) :
    sampledOutOf rt s.args env r = !decide ((bucketOf rt env : Int) < r.samplePercent) := by
  unfold sampledOutOf shouldSampleOut args
  simp only [s.enabled, hs.unprotected, Bool.not_true, Bool.false_or, decide_eq_true_eq,
    not_le.2 hs.sample_lt, if_false, Bool.false_eq_true, canaryPass_eq]
  rfl

/-- A destination of a sampled route receives the events that come to it and pass both gates. -/
theorem copyFor_eq (hr : r ∈ s.routes) (hs : s.Samples r) (hd : d ∈ r.destinationIds) (env : Obj) :
    copyFor rt s.args env d =
      if s.comesTo r env && !s.killed env &&
          decide ((bucketOf rt env : Int) < min r.canaryPercent r.samplePercent) then
        some (deliveredCopy rt s.args r env) else none := by
  have hloops : loops s.args env d = false := by
    simp [loops, args, RouteArgs.loopIds]
  have hconflicts : conflicts rt s.args (eventLabels env) d = false := rfl
  cases hdropped : (decisionOf rt s.args env).dropped with
  | true =>
    rw [copyFor, hdropped, if_pos rfl, ← dropped_eq_killed, hdropped]
    simp
  | false =>
    rw [← dropped_eq_killed, hdropped]
    by_cases happlied : r ∈ appliedRoutes rt (eventLabels env) s.args.ordered
    · have hwinner := (s.winnerOf_iff hr hd env hdropped).2 ⟨rfl, happlied⟩
      obtain ⟨hcomes, hcanary⟩ := (s.mem_applied_iff hr env).1 happlied
      rw [copyFor_winner hwinner hloops hconflicts, s.sampledOutOf_eq hs]
      by_cases hkept : (bucketOf rt env : Int) < r.samplePercent
      · simp [hkept, hcomes, hcanary]
      · simp [hkept]
    · have hwinner : winnerOf rt s.args env d = none := by
        rw [Option.eq_none_iff_forall_ne_some]
        intro w hw
        exact happlied ((s.winnerOf_iff hr hd env hdropped).1 hw).2
      have hnone : (survivingOf rt s.args env).get? d = none := by
        rw [survivingOf_get?, hloops, hconflicts, hwinner]
        rfl
      have hgate : (s.comesTo r env && !false &&
          decide ((bucketOf rt env : Int) < min r.canaryPercent r.samplePercent)) = false := by
        rw [mem_applied_iff s hr] at happlied
        rw [Bool.not_false, Bool.and_true, Bool.and_eq_false_iff, decide_eq_false_iff_not,
          lt_min_iff]
        by_cases hcomes : s.comesTo r env = true
        · exact .inr fun h => happlied ⟨hcomes, h.1⟩
        · exact .inl (Bool.eq_false_iff.2 hcomes)
      rw [hgate, copyFor, hdropped, hnone]
      simp [args]

theorem inverseRate_deliveredCopy (hs : s.Samples r) (env : Obj) :
    inverseRate (deliveredCopy rt s.args r env) = 100 / r.samplePercent := by
  have hlabels : labelsSample s.args r = true := by
    simp only [labelsSample, args, s.enabled, hs.unprotected, hs.sample_lt, decide_true,
      Bool.not_false, Bool.and_self]
  rw [inverseRate, deliveredCopy_sample_rate, hlabels, if_pos rfl, sampleRate]
  exact inv_div _ _

theorem rescales_iff_balanced (hr : r ∈ s.routes) (hs : s.Samples r) (hd : d ∈ r.destinationIds) :
    ((s.delivered d).map inverseRate).sum = s.applied r ↔ s.Balanced r := by
  have hpos : (0 : Rat) < r.samplePercent := by exact_mod_cast hs.sample_pos
  have hcopies : s.delivered d = s.batch.filterMap (fun env =>
      if s.comesTo r env && !s.killed env &&
          decide ((bucketOf rt env : Int) < min r.canaryPercent r.samplePercent) then
        some (deliveredCopy rt s.args r env) else none) := by
    rw [delivered, bucket_eq_filterMap]
    apply List.filterMap_congr
    intro env _
    exact s.copyFor_eq hr hs hd env
  rw [hcopies, sum_filterMap_const _ _ (s.inverseRate_deliveredCopy hs), s.applied_eq hr,
    Balanced, ← mul_div_assoc, div_eq_iff hpos.ne']
  rw [← @Int.cast_inj Rat]
  push_cast
  constructor
  · intro h
    rw [mul_comm, h, mul_comm]
  · intro h
    rw [mul_comm, h, mul_comm]

theorem countP_below (hr : r ∈ s.routes) (n : Nat) (hn : n ≤ 100) :
    s.batch.countP (fun env => covers rt r env && decide (bucketOf rt env < n)) =
      n * s.batch.countP (fun env => covers rt r env && decide (bucketOf rt env = 0)) := by
  induction n with
  | zero => simp
  | succ n ih =>
    have hsplit : s.batch.countP (fun env => covers rt r env && decide (bucketOf rt env < n + 1)) =
        s.batch.countP (fun env => covers rt r env && decide (bucketOf rt env < n)) +
          s.batch.countP (fun env => covers rt r env && decide (bucketOf rt env = n)) := by
      induction s.batch with
      | nil => rfl
      | cons env batch ihb =>
        simp only [List.countP_cons, ihb, Bool.and_eq_true, decide_eq_true_eq]
        obtain hlt | heq | hgt := lt_trichotomy (bucketOf rt env) n
        · simp [hlt, hlt.ne, Nat.lt_succ_of_lt hlt]
          omega
        · simp [heq]
          omega
        · simp [hgt.ne', hgt.not_gt, Nat.not_lt.2 (Nat.succ_le_of_lt hgt)]
    rw [hsplit, ih (by omega), s.uniform r hr n (by omega) 0 (by decide), Nat.succ_mul]

theorem countP_below_int (hr : r ∈ s.routes) (p : Int) (hpos : 0 < p) (hle : p ≤ 100) :
    (s.batch.countP (fun env => covers rt r env && decide ((bucketOf rt env : Int) < p)) : Int) =
      p * s.batch.countP (fun env => covers rt r env && decide (bucketOf rt env = 0)) := by
  obtain ⟨n, rfl⟩ := Int.eq_ofNat_of_zero_le hpos.le
  have hbelow := s.countP_below hr n (by omega)
  simp only [Nat.cast_lt]
  rw [hbelow, Nat.cast_mul]

theorem bucketOf_lt (env : Obj) : bucketOf rt env < 100 := Nat.mod_lt _ (by decide)

theorem first_bucket_iff (hr : r ∈ s.routes) :
    s.batch.countP (fun env => covers rt r env && decide (bucketOf rt env = 0)) = 0 ↔
      ∀ env ∈ s.batch, covers rt r env = false := by
  constructor
  · intro hzero env henv
    have hbucket := s.uniform r hr (bucketOf rt env) (bucketOf_lt env) 0 (by decide)
    rw [hzero, List.countP_eq_zero] at hbucket
    have hnot := hbucket env henv
    simpa using hnot
  · intro hnone
    rw [List.countP_eq_zero]
    intro env henv
    simp [hnone env henv]

theorem balanced_iff_full (hr : r ∈ s.routes) (hs : s.Samples r) (hfree : s.Unhindered r) :
    s.Balanced r ↔ r.canaryPercent = 100 ∨ ∀ env ∈ s.batch, covers rt r env = false := by
  have hcomes : ∀ env ∈ s.batch, s.comesTo r env = covers rt r env := by
    intro env henv
    cases hcovers : covers rt r env with
    | true => exact (hfree env henv hcovers).1
    | false => simp [comesTo, hcovers]
  have hkept : ∀ p : Int,
      s.batch.countP (fun env => s.comesTo r env && !s.killed env &&
        decide ((bucketOf rt env : Int) < p)) =
      s.batch.countP (fun env => covers rt r env && decide ((bucketOf rt env : Int) < p)) := by
    intro p
    apply List.countP_congr
    intro env henv
    rw [hcomes env henv]
    cases hcovers : covers rt r env with
    | true => simp [(hfree env henv hcovers).2]
    | false => simp
  have hseen : s.batch.countP (fun env => s.comesTo r env &&
        decide ((bucketOf rt env : Int) < r.canaryPercent)) =
      s.batch.countP (fun env => covers rt r env &&
        decide ((bucketOf rt env : Int) < r.canaryPercent)) := by
    apply List.countP_congr
    intro env henv
    rw [hcomes env henv]
  have hboth : 0 < min r.canaryPercent r.samplePercent := lt_min hs.canary_pos hs.sample_pos
  have hlt : min r.canaryPercent r.samplePercent ≤ 100 :=
    (min_le_left _ _).trans hs.canary_le
  rw [Balanced, hkept, hseen, s.countP_below_int hr _ hboth hlt,
    s.countP_below_int hr _ hs.canary_pos hs.canary_le, ← s.first_bucket_iff hr]
  generalize s.batch.countP (fun env => covers rt r env && decide (bucketOf rt env = 0)) = n
  have hsample := hs.sample_pos
  have hsample' := hs.sample_lt
  have hcanary := hs.canary_pos
  have hcanary' := hs.canary_le
  rw [← mul_assoc, ← mul_assoc, mul_eq_mul_right_iff, Nat.cast_eq_zero]
  apply or_congr_left
  constructor
  · intro hproduct
    obtain hle | hle := le_total r.canaryPercent r.samplePercent
    · rw [min_eq_left hle, mul_comm] at hproduct
      have hcancel := mul_right_cancel₀ hcanary.ne' ((mul_comm _ _).trans hproduct)
      omega
    · rw [min_eq_right hle, mul_comm] at hproduct
      exact (mul_left_cancel₀ hsample.ne' hproduct).symm
  · intro hfull
    rw [hfull, min_eq_right hsample'.le, mul_comm]

end SampledBatch

/-- The copies of sampled routes add up to the events they were applied to just when canary and
sampling balance, which an unhindered route does with a full canary only. -/
theorem sample_rate_rescales_iff (rt : Runtime) (s : SampledBatch rt) :
    (s.Rescales ↔ ∀ r ∈ s.routes, s.Samples r → r.destinationIds ≠ [] → s.Balanced r) ∧
      ∀ r ∈ s.routes, s.Samples r → s.Unhindered r →
        (s.Balanced r ↔ r.canaryPercent = 100 ∨ ∀ env ∈ s.batch, covers rt r env = false) := by
  refine ⟨⟨?_, ?_⟩, fun r hr hs hfree => s.balanced_iff_full hr hs hfree⟩
  · intro h r hr hs hne
    obtain ⟨d, hd⟩ := List.exists_mem_of_ne_nil _ hne
    exact (s.rescales_iff_balanced hr hs hd).1 (h r hr hs d hd)
  · intro h r hr hs d hd
    exact (s.rescales_iff_balanced hr hs hd).2 (h r hr hs (List.ne_nil_of_mem hd))

section Example

def countingDigest : Runtime :=
  { Runtime.ascii with sha1 := fun s => BitVec.ofNat 160 (s.toList.length * 2 ^ 128) }

def eventOfLength (n : Nat) : Obj :=
  [("_centralops", .obj [("event_id", .str (String.ofList (List.replicate (n + 1) 'e')))])]

theorem bucketOf_eventOfLength (n : Nat) (hn : n < 2 ^ 31) :
    bucketOf countingDigest (eventOfLength n) = (n + 1) % 100 := by
  have hid : labelEventId countingDigest (eventLabels (eventOfLength n)) =
      String.ofList (List.replicate (n + 1) 'e') := by
    have hne : String.ofList (List.replicate (n + 1) 'e') ≠ "" := by
      rw [Ne, ← String.toList_inj]
      simp
    simp [labelEventId, eventLabels, eventOfLength, Obj.getN, Json.asObj, Json.truthy, hne,
      Runtime.str]
  rw [bucketOf, hid, canaryBucket, countingDigest]
  simp only [String.toList_ofList, List.length_replicate, BitVec.toNat_ofNat]
  have hfits : (n + 1) * 2 ^ 128 < 2 ^ 160 := by
    calc (n + 1) * 2 ^ 128 < 2 ^ 32 * 2 ^ 128 :=
          Nat.mul_lt_mul_of_pos_right (by omega) (by decide)
      _ = 2 ^ 160 := by decide
  rw [Nat.mod_eq_of_lt hfits, Nat.mul_div_cancel _ (by decide)]

def halfRoute : CompiledRoute where
  id := "siem"
  priority := 1
  condition := []
  destinationIds := ["siem"]
  isFinal := true
  canaryPercent := 50
  protectDetection := false
  samplePercent := 50

theorem one_in_each_bucket (b : Nat) (hb : b < 100) :
    ((List.range 100).map eventOfLength).countP (fun env => covers countingDigest halfRoute env &&
      decide (bucketOf countingDigest env = b)) = 1 := by
  have hcount : ∀ b < 100, (List.range 100).countP (fun n => decide ((n + 1) % 100 = b)) = 1 := by
    decide +kernel
  rw [List.countP_map, ← hcount b hb]
  apply List.countP_congr
  intro n hn
  have hlt : n < 2 ^ 31 := (List.mem_range.1 hn).trans (by decide)
  have hcovers : covers countingDigest halfRoute (eventOfLength n) = true := rfl
  rw [Function.comp, hcovers, Bool.true_and, bucketOf_eventOfLength n hlt]

def halfCanary : SampledBatch countingDigest where
  routes := [halfRoute]
  batch := (List.range 100).map eventOfLength
  cfg := { enabled := true }
  measureDropBytes := false
  enabled := rfl
  distinct := by decide
  disjoint := by simp
  uniform := by
    intro r hr b hb b' hb'
    obtain rfl := List.mem_singleton.1 hr
    rw [one_in_each_bucket b hb, one_in_each_bucket b' hb']

/-- Every copy of the canary is kept and counts for two events. -/
theorem halfCanary_misscales : ¬ halfCanary.Rescales := by
  have hs : halfCanary.Samples halfRoute := by
    constructor <;> decide
  have hmem : halfRoute ∈ halfCanary.routes := List.mem_singleton_self _
  have hfree : halfCanary.Unhindered halfRoute := by
    intro env _ _
    have hordered : halfCanary.args.ordered = [halfRoute] := rfl
    simp [SampledBatch.comesTo, SampledBatch.killed, hordered, reachesRoute, covers, matchesCondition,
      halfRoute]
  intro h
  have hbalanced := (halfCanary.rescales_iff_balanced hmem hs (List.mem_singleton_self "siem")).1
    (h halfRoute hmem hs "siem" (List.mem_singleton_self _))
  obtain hfull | hnone := (halfCanary.balanced_iff_full hmem hs hfree).1 hbalanced
  · cases hfull
  · have hevent : eventOfLength 0 ∈ halfCanary.batch :=
      List.mem_map_of_mem (List.mem_range.2 (by decide))
    cases hnone _ hevent

end Example

end CentralOps
