import CentralOps.Lib.Fails
import CentralOps.Pipeline.Store
import CentralOps.Routing.Accounting
import Mathlib.Data.Finset.Sort
import Mathlib.Data.String.Basic

namespace CentralOps
set_option autoImplicit true

/-- `_compile`: the route of a row, without what changes the copies that it sends. -/
def compileForPreview (row : RouteRow) : Except String CompiledRoute := do
  let condition ← row.condition.loads []
  let destinationIds ← row.destinationIds.loads []
  let canaryPercent ← match row.canaryPercent with
    | some percent => pure percent
    | none => .error "TypeError"
  return {
    id := row.id
    name := row.name
    priority := row.priority
    condition := condition
    action := if row.action = "drop" then .drop else .route
    destinationIds := destinationIds
    isFinal := row.isFinal
    enabled := row.enabled
    canaryPercent := canaryPercent }

structure DryRunResult where
  labels : Obj
  destinations : List String
  dropped : Bool
  fallback : Bool

structure DryRun where
  routed : Nat := 0
  dropped : Nat := 0
  fallback : Nat := 0
  perDestination : Dict String Nat := .empty
  results : List DryRunResult := []

section Preview
variable (rt : Runtime) (ordered : List CompiledRoute) (fb : Option String)

def previewResult (env : Obj) : DryRunResult :=
  let labels := eventLabels env
  let decision := evaluateEvent rt labels ordered
  if decision.dropped then ⟨labels, [], true, false⟩
  else if decision.destinations = ∅ then ⟨labels, fb.toList, false, true⟩
  else ⟨labels, decision.destinations.sort (· ≤ ·), false, false⟩

def DryRun.record (acc : DryRun) (result : DryRunResult) : DryRun where
  routed := acc.routed + if !result.dropped && !result.fallback then 1 else 0
  dropped := acc.dropped + if result.dropped then 1 else 0
  fallback := acc.fallback + if result.fallback then 1 else 0
  perDestination := result.destinations.foldl (fun d dest => d.bump dest 1) acc.perDestination
  results := acc.results ++ [result]

def previewLoop (samples : List Obj) : DryRun :=
  samples.foldl (fun acc env => acc.record (previewResult rt ordered fb env)) {}

/-- `dry_run_routes` over the saved routes. -/
def dryRunRoutes (rows : List RouteRow) (samples : List Obj) : Except String DryRun := do
  let compiled ← rows.mapM compileForPreview
  return previewLoop rt (orderRoutes compiled) fb samples

end Preview

def CompiledRoute.previewed (r : CompiledRoute) : CompiledRoute where
  id := r.id
  name := r.name
  priority := r.priority
  condition := r.condition
  action := r.action
  destinationIds := r.destinationIds
  isFinal := r.isFinal
  enabled := r.enabled
  canaryPercent := r.canaryPercent

section Compile
variable {rt : Runtime} {settings : Settings}

theorem compileForPreview_eq {row : RouteRow} (h : compileRouteRow rt settings row = .ok r)
    (hcanary : row.canaryPercent ≠ none) : compileForPreview row = .ok r.previewed := by
  obtain ⟨percent, hpercent⟩ := Option.ne_none_iff_exists'.1 hcanary
  obtain ⟨redaction, -, h⟩ := Except.bind_eq_ok h
  obtain ⟨condition, hcondition, h⟩ := Except.bind_eq_ok h
  obtain ⟨destinationIds, hdests, h⟩ := Except.bind_eq_ok h
  cases h
  unfold compileForPreview
  rw [hcondition, hdests, hpercent]
  rfl

theorem compileRows_previewed {rows : List RouteRow}
    (h : rows.mapM (compileRouteRow rt settings) = .ok routes)
    (hcanary : ∀ row ∈ rows, row.canaryPercent ≠ none) :
    rows.mapM compileForPreview = .ok (routes.map CompiledRoute.previewed) := by
  induction rows generalizing routes with
  | nil =>
    cases h
    rfl
  | cons row rows ih =>
    obtain ⟨hrow, hrows⟩ := List.forall_mem_cons.1 hcanary
    rw [List.mapM_cons] at h ⊢
    obtain ⟨r, hr, h⟩ := Except.bind_eq_ok h
    obtain ⟨rs, hrs, h⟩ := Except.bind_eq_ok h
    cases h
    rw [compileForPreview_eq hr hrow, ih hrs hrows]
    rfl

theorem orderRoutes_previewed (routes : List CompiledRoute) :
    orderRoutes (routes.map CompiledRoute.previewed) =
      (orderRoutes routes).map CompiledRoute.previewed :=
  (List.map_insertionSort routeLe routeLe CompiledRoute.previewed routes
    fun _ _ _ _ => Iff.rfl).symm

/-- The evaluation does not read what the preview leaves out. -/
theorem evaluateLoop_previewed (rt : Runtime) (labels : Obj) (routes : List CompiledRoute)
    (dests ids : List String) (asg asg' : List (String × CompiledRoute)) :
    (evaluateLoop rt labels (routes.map CompiledRoute.previewed) dests ids asg').dropped =
        (evaluateLoop rt labels routes dests ids asg).dropped ∧
      (evaluateLoop rt labels (routes.map CompiledRoute.previewed) dests ids asg').destinations =
        (evaluateLoop rt labels routes dests ids asg).destinations := by
  induction routes generalizing dests ids asg asg' with
  | nil => exact ⟨rfl, rfl⟩
  | cons r routes ih =>
    have happlies : applies rt labels r.previewed = applies rt labels r := rfl
    simp only [List.map_cons, evaluateLoop, happlies]
    split
    · exact ih dests ids asg asg'
    · have haction : r.previewed.action = r.action := rfl
      have hfinal : r.previewed.isFinal = r.isFinal := rfl
      simp only [haction, hfinal]
      split
      · exact ⟨rfl, rfl⟩
      · split
        · exact ⟨rfl, rfl⟩
        · exact ih _ _ _ _

theorem previewResult_previewed (ordered : List CompiledRoute) (fb : Option String) (env : Obj) :
    previewResult rt (ordered.map CompiledRoute.previewed) fb env =
      previewResult rt ordered fb env := by
  obtain ⟨hdropped, hdests⟩ :=
    evaluateLoop_previewed rt (eventLabels env) ordered [] [] [] []
  simp only [previewResult, evaluateEvent, hdropped, hdests]
  congr

end Compile

/-- No sampling, no residency and no destination that leads back to the manager. -/
structure RouteArgs.Plain (args : RouteArgs) : Prop where
  sampling : args.sampling = none
  residency : args.destinationResidency = none
  loops : args.loopIds = []

section Plain
variable {rt : Runtime} {args : RouteArgs} {env : Obj}

theorem Plain.loops_eq (h : args.Plain) (dest : String) : loops args env dest = false := by
  rw [loops, h.loops]
  simp

theorem Plain.conflicts_eq (h : args.Plain) (labels : Obj) (dest : String) :
    conflicts rt args labels dest = false := by
  rw [conflicts, RouteArgs.residencyOf, h.residency]
  rfl

theorem Plain.sampledOutOf_eq (h : args.Plain) (route : CompiledRoute) :
    sampledOutOf rt args env route = false := by
  rw [sampledOutOf, h.sampling]
  rfl

theorem Plain.survivingOf_isEmpty (h : args.Plain) :
    (survivingOf rt args env).isEmpty = true ↔ (decisionOf rt args env).destinations = ∅ := by
  rw [survivingOf_isEmpty_iff, Finset.eq_empty_iff_forall_notMem]
  refine forall_congr' fun d => imp_congr_right fun _ => ?_
  rw [Plain.loops_eq h, Plain.conflicts_eq h]
  simp

theorem Plain.outcomeOf_eq (h : args.Plain) :
    outcomeOf rt args env =
      if (decisionOf rt args env).dropped then .dropped
      else if (decisionOf rt args env).destinations = ∅ then sinkless args env else .routed := by
  unfold outcomeOf
  simp only [Plain.survivingOf_isEmpty h, Plain.sampledOutOf_eq h]
  by_cases hempty : (decisionOf rt args env).destinations = ∅
  · simp [hempty]
  · have hentries : (survivingOf rt args env).entries ≠ [] := fun hnil =>
      hempty ((Plain.survivingOf_isEmpty h).1 (by simp [Dict.isEmpty, hnil]))
    have hall : (survivingOf rt args env).entries.all (fun _ => false) = false := by
      cases he : (survivingOf rt args env).entries with
      | nil => exact absurd he hentries
      | cons e es => rfl
    simp [hempty, hall]

/-- The destinations that a sample is listed for are those that get a copy of it. -/
theorem Plain.mem_destinations (h : args.Plain) (dest : String) :
    dest ∈ (previewResult rt args.ordered args.fallbackDestinationId env).destinations ↔
      (copyFor rt args env dest).isSome = true := by
  change dest ∈ (if (decisionOf rt args env).dropped then _
    else if (decisionOf rt args env).destinations = ∅ then _ else _ : DryRunResult).destinations ↔ _
  unfold copyFor
  by_cases hdropped : (decisionOf rt args env).dropped = true
  · simp [hdropped]
  · by_cases hempty : (decisionOf rt args env).destinations = ∅
    · have hsinkless : sinkless args env = .fallback ↔ args.fallbackDestinationId ≠ none := by
        rw [sinkless_fallback_iff, Option.ne_none_iff_exists']
        simp only [Plain.loops_eq h, and_true]
      simp only [hdropped, hempty, (Plain.survivingOf_isEmpty h).2 hempty, hsinkless, if_true]
      cases args.fallbackDestinationId with
      | none => simp
      | some fb =>
        by_cases hfb : fb = dest
        · simp [hfb]
        · simp [hfb, Ne.symm hfb]
    · have hne : (survivingOf rt args env).isEmpty = false :=
        Bool.eq_false_iff.2 fun he => hempty ((Plain.survivingOf_isEmpty h).1 he)
      simp only [hdropped, hempty, hne, survivingOf_get?, Plain.loops_eq h, Plain.conflicts_eq h,
        Plain.sampledOutOf_eq h]
      have hwinner : dest ∈ (decisionOf rt args env).destinations ↔ _ := winnerOf_isSome rt args env
      unfold decisionOf at hwinner
      cases hw : winnerOf rt args env dest with
      | none => simp [hwinner, hw]
      | some w => simp [hwinner, hw]

theorem Plain.nodup_destinations (ordered : List CompiledRoute) (fb : Option String) (env : Obj) :
    (previewResult rt ordered fb env).destinations.Nodup := by
  unfold previewResult
  dsimp only
  split
  · exact List.nodup_nil
  · split
    · cases fb with
      | none => exact List.nodup_nil
      | some fb => exact List.nodup_singleton fb
    · exact Finset.sort_nodup _ _

variable (rt env) in
/-- A sample is dropped, falls back or is routed, as the router's verdict on it says. -/
theorem Plain.result_flags (h : args.Plain) :
    ((previewResult rt args.ordered args.fallbackDestinationId env).dropped = true ↔
      outcomeOf rt args env = .dropped) ∧
    ((previewResult rt args.ordered args.fallbackDestinationId env).fallback = true ↔
      outcomeOf rt args env ∈ [Outcome.fallback, .unrouted, .loopBlocked]) := by
  rw [Plain.outcomeOf_eq h]
  change ((if (decisionOf rt args env).dropped then _
    else if (decisionOf rt args env).destinations = ∅ then _ else _ : DryRunResult).dropped = _ ↔ _) ∧
    ((if (decisionOf rt args env).dropped then _
    else if (decisionOf rt args env).destinations = ∅ then _ else _ : DryRunResult).fallback = _ ↔ _)
  have hsinkless : sinkless args env ≠ .dropped ∧
      sinkless args env ∈ [Outcome.fallback, .unrouted, .loopBlocked] := by
    unfold sinkless
    split
    · split <;> simp
    · split <;> simp
  by_cases hdropped : (decisionOf rt args env).dropped = true
  · simp [hdropped]
  · by_cases hempty : (decisionOf rt args env).destinations = ∅
    · simpa [hdropped, hempty] using hsinkless
    · simp [hdropped, hempty]

end Plain

section Agreement
variable (rt : Runtime) (args : RouteArgs) (samples : List Obj)

/-- The batch counts position `i` under the outcome. -/
def CountedAt (i : Nat) (o : Outcome) : Prop :=
  (routeBatch rt args (samples.take (i + 1))).counter o =
    (routeBatch rt args (samples.take i)).counter o + 1

/-- A preview of the samples says what the router does with them. A sample that the router withholds
from a loop is previewed as one for the fallback. -/
structure Previews (preview : DryRun) : Prop where
  evaluated : preview.results.length = samples.length
  dropped : ∀ i result, preview.results[i]? = some result →
    (result.dropped = true ↔ CountedAt rt args samples i .dropped)
  fallback : ∀ i result, preview.results[i]? = some result →
    (result.fallback = true ↔ CountedAt rt args samples i .fallback ∨
      CountedAt rt args samples i .unrouted ∨ CountedAt rt args samples i .loopBlocked)
  destinations : ∀ i result, preview.results[i]? = some result →
    ∀ dest, dest ∈ result.destinations ↔ copiesAt rt args samples i dest ≠ []
  perDestination : ∀ dest, (preview.perDestination.get? dest).getD 0 =
    ((routeBatch rt args samples).subBatches.bucket dest).length
  total : samples.length = preview.routed + preview.dropped + preview.fallback

variable {rt args samples}

theorem countedAt_iff (h : samples[i]? = some env) (o : Outcome) (ho : o ≠ .sampledOut) :
    CountedAt rt args samples i o ↔ outcomeOf rt args env = o := by
  rw [CountedAt, (position_extends h).counters o ho]
  split <;> simp_all

theorem getD_foldl_bump (ds : List String) (hds : ds.Nodup) (d : Dict String Nat) (dest : String) :
    ((ds.foldl (fun d k => d.bump k 1) d).get? dest).getD 0 =
      (d.get? dest).getD 0 + if dest ∈ ds then 1 else 0 := by
  induction ds generalizing d with
  | nil => simp
  | cons k ds ih =>
    obtain ⟨hk, hds⟩ := List.nodup_cons.1 hds
    rw [List.foldl_cons, ih hds]
    by_cases hdest : dest = k
    · subst hdest
      simp [Dict.bump, hk]
    · simp [Dict.bump, Dict.get?_set_ne _ hdest, hdest]

variable (rt samples) in
theorem previewLoop_spec (h : args.Plain) :
    let preview := previewLoop rt args.ordered args.fallbackDestinationId samples
    preview.results = samples.map (previewResult rt args.ordered args.fallbackDestinationId) ∧
    (∀ dest, (preview.perDestination.get? dest).getD 0 =
      ((routeBatch rt args samples).subBatches.bucket dest).length) ∧
    samples.length = preview.routed + preview.dropped + preview.fallback := by
  induction samples using List.reverseRecOn with
  | nil => exact ⟨rfl, fun dest => rfl, rfl⟩
  | append_singleton before env ih =>
    obtain ⟨hresults, hcounts, htotal⟩ := ih
    have hloop : previewLoop rt args.ordered args.fallbackDestinationId (before ++ [env]) =
        (previewLoop rt args.ordered args.fallbackDestinationId before).record
          (previewResult rt args.ordered args.fallbackDestinationId env) := by
      simp [previewLoop]
    simp only [hloop, DryRun.record]
    refine ⟨by simp [hresults], fun dest => ?_, ?_⟩
    · rw [getD_foldl_bump _ (Plain.nodup_destinations _ _ _), hcounts, routeBatch_append_one,
        (routeEvent_extends rt args env _).sends, Dict.bucket_pushAll, values_sendsOf,
        List.length_append]
      simp only [Plain.mem_destinations h]
      cases copyFor rt args env dest <;> simp
    · obtain ⟨hdropped, hfallback⟩ := Plain.result_flags rt env h
      rw [List.length_append, htotal, List.length_singleton]
      generalize previewResult rt args.ordered args.fallbackDestinationId env = result at *
      have hnot : ¬ (result.dropped = true ∧ result.fallback = true) := by
        rintro ⟨hd, hf⟩
        rw [hdropped.1 hd] at hfallback
        simpa using hfallback.1 hf
      cases hd : result.dropped <;> cases hf : result.fallback <;> simp_all <;> omega

end Agreement

/-- A row that every event matches, for one destination. -/
def lakeRow : RouteRow where
  id := "r1"
  priority := 1
  condition := .empty
  action := "route"
  destinationIds := .stored ["lake"]
  isFinal := true
  canaryPercent := some 100
  piiRedaction := .empty

def lakeRoute : CompiledRoute where
  id := "r1"
  priority := 1
  condition := []
  destinationIds := ["lake"]
  isFinal := true

def lakeArgs : RouteArgs where
  routes := [lakeRoute]
  fallbackDestinationId := some "siem"

theorem lakeRow_compiles :
    [lakeRow].mapM (compileRouteRow Runtime.ascii {}) = .ok lakeArgs.routes := by
  have haction : ¬ "route" = "drop" := by decide
  simp only [List.mapM_cons, List.mapM_nil, compileRouteRow, compileRowRedaction, buildRoute,
    lakeRow, JsonText.loads, if_neg haction]
  rfl

/-- A sample that comes from Wazuh. -/
def wazuhSample : Obj := [("_centralops", .obj [("platform", .str "wazuh")])]

end CentralOps
