import Mathlib.Data.Finset.Basic
import Mathlib.Data.List.Sort
import CentralOps.Routing.Condition
import CentralOps.Routing.Redaction

namespace CentralOps
set_option autoImplicit true

inductive RouteAction where
  | route | drop
  deriving DecidableEq

structure CompiledRoute where
  id : String
  name : String := ""
  priority : Int
  condition : Obj
  action : RouteAction := .route
  destinationIds : List String
  isFinal : Bool
  enabled : Bool := true
  canaryPercent : Int := 100
  protectDetection : Bool := true
  samplePercent : Int := 100
  suppressKey : Option String := none
  suppressAllow : Int := 0
  suppressWindowS : Int := 30
  redaction : List CompiledRedactionRule := []
  dropRaw : Bool := false

def CompiledRoute.redacts (r : CompiledRoute) : Bool := !r.redaction.isEmpty

structure SamplingConfig where
  enabled : Bool := false
  protectDetectionEnforced : Bool := true

section Percentages
variable (rt : Runtime)

/-- The first eight hex digits of the digest are its top 32 bits. -/
def canaryBucket (eventId : String) : Nat := (rt.sha1 eventId).toNat / 2 ^ 128 % 100

def canaryPass (percent : Int) (eventId : String) : Bool :=
  if 100 ≤ percent then true
  else if percent ≤ 0 then false
  else decide ((canaryBucket rt eventId : Int) < percent)

def shouldSampleOut (route : CompiledRoute) (eventId : String)
    (sampling : Option SamplingConfig) : Bool :=
  match sampling with
  | none => false
  | some cfg =>
    if !cfg.enabled || 100 ≤ route.samplePercent then false
    else if route.protectDetection && cfg.protectDetectionEnforced then false
    else !canaryPass rt route.samplePercent eventId

end Percentages

/-! Labels and the two decorations of a delivered copy. -/

def eventLabels (envelope : Obj) : Obj := (envelope.getN "_centralops").asObj

/-- `round(sample_percent / 100.0, 6)`, by its decimal value. -/
def sampleRate (samplePercent : Int) : Json := .float (.finite (samplePercent / 100))

def withSampleRate (env : Obj) (samplePercent : Int) : Obj :=
  Assoc.set "_centralops"
    (.obj (Assoc.set "sample_rate" (sampleRate samplePercent) (eventLabels env))) env

/-- The copy without `raw`, marked; `none` when there is no `raw` to remove. -/
def withoutRaw (env : Obj) : Option Obj :=
  if (env.lookup "raw").isNone then none
  else
    let out := Assoc.erase "raw" env
    some (Assoc.set "_centralops"
      (.obj (Assoc.set "raw_dropped" (.bool true) (eventLabels out))) out)

structure EventRouting where
  destinations : Finset String
  dropped : Bool
  matched : Bool
  /-- A `frozenset`: listed without repeats. -/
  matchedRouteIds : List String
  assignments : List (String × CompiledRoute) := []
  dropRouteId : Option String := none

/-- `(priority, id)` ascending. -/
def routeLe (r s : CompiledRoute) : Prop :=
  r.priority < s.priority ∨ r.priority = s.priority ∧ ¬ s.id < r.id

instance : DecidableRel routeLe := fun r s =>
  inferInstanceAs (Decidable (r.priority < s.priority ∨ r.priority = s.priority ∧ ¬ s.id < r.id))

def orderRoutes (routes : List CompiledRoute) : List CompiledRoute :=
  routes.insertionSort routeLe

/-- `str(labels.get("event_id") or "")`. -/
def labelEventId (rt : Runtime) (labels : Obj) : String :=
  let v := labels.getN "event_id"
  if v.truthy then rt.str v else ""

/-- A route the evaluation of these labels does not skip. -/
def applies (rt : Runtime) (labels : Obj) (r : CompiledRoute) : Bool :=
  r.enabled && matchesCondition rt r.condition labels &&
    canaryPass rt r.canaryPercent (labelEventId rt labels)

def evaluateLoop (rt : Runtime) (labels : Obj) : List CompiledRoute → List String →
    List String → List (String × CompiledRoute) → EventRouting
  | [], dests, ids, assignments =>
    { destinations := dests.toFinset, dropped := false, matched := !ids.isEmpty,
      matchedRouteIds := ids.dedup, assignments := assignments }
  | r :: rest, dests, ids, assignments =>
    if !applies rt labels r then evaluateLoop rt labels rest dests ids assignments
    else
      let ids := ids ++ [r.id]
      if r.action = .drop then
        { destinations := ∅, dropped := true, matched := true,
          matchedRouteIds := ids.dedup, dropRouteId := some r.id }
      else
        let dests := dests ++ r.destinationIds
        let assignments := assignments ++ r.destinationIds.map (fun d => (d, r))
        if r.isFinal then
          { destinations := dests.toFinset, dropped := false, matched := !ids.isEmpty,
            matchedRouteIds := ids.dedup, assignments := assignments }
        else evaluateLoop rt labels rest dests ids assignments

def evaluateEvent (rt : Runtime) (labels : Obj) (ordered : List CompiledRoute) : EventRouting :=
  evaluateLoop rt labels ordered [] [] []

/-- Result of routing a whole batch. -/
structure BatchRouting where
  subBatches : Dict String (List Obj) := .empty
  routed : Nat := 0
  dropped : Nat := 0
  fallback : Nat := 0
  unrouted : Nat := 0
  unroutedEvents : List Obj := []
  perRoute : Dict String Nat := .empty
  residencyBlocked : Nat := 0
  loopBlocked : Nat := 0
  sampled : Nat := 0
  sampledPerRoute : Dict String Nat := .empty
  sampledBytesPerOrg : Dict Json Nat := .empty
  droppedBytesPerOrg : Dict Json Nat := .empty
  rawDroppedBytesPerOrg : Dict Json Nat := .empty
  droppedEvents : List (Obj × String) := []
  loopBlockedEvents : List (Obj × String) := []
  residencyBlockedEvents : List (Obj × String) := []
  sampledEvents : List (Obj × String × String) := []

def residencyConflict (rt : Runtime) (destResidency eventGeography : Option String) : Bool :=
  match destResidency, eventGeography with
  | some r, some g =>
    if r = "" ∨ g = "" then false
    else if rt.lower r = "global" ∨ rt.lower g = "global" then false
    else decide (rt.upper r ≠ rt.upper g)
  | _, _ => false

/-- The keyword arguments of `route_batch`, with its routes. -/
structure RouteArgs where
  routes : List CompiledRoute
  fallbackDestinationId : Option String := none
  destinationResidency : Option (Dict String (Option String)) := none
  wazuhLoopDestinationIds : Option (List String) := none
  sampling : Option SamplingConfig := none
  measureDropBytes : Bool := false

namespace RouteArgs
variable (args : RouteArgs)

def ordered : List CompiledRoute := orderRoutes args.routes

def loopIds : List String := args.wazuhLoopDestinationIds.getD []

def residencyOf (dest : String) : Option String :=
  match args.destinationResidency with
  | none => none
  | some m => (m.get? dest).getD none

end RouteArgs

def sourceIsWazuh (labels : Obj) : Bool := labels.getN "platform" = .str "wazuh"

/-- `labels.get("data_geography") or None`. -/
def eventGeo (labels : Obj) : Option String :=
  match labels.getN "data_geography" with
  | .str g => some g
  | _ => none

section Loop
variable (rt : Runtime) (args : RouteArgs)

def creditBytes (labels : Obj) (nbytes : Nat) (perOrg : Dict Json Nat) : Dict Json Nat :=
  let org := labels.getN "organization_id"
  if org = .null ∨ nbytes = 0 then perOrg else perOrg.bump org nbytes

def noDestination (result : BatchRouting) (env labels : Obj) (reason : String) : BatchRouting :=
  let loop := { result with
    loopBlocked := result.loopBlocked + 1
    loopBlockedEvents := result.loopBlockedEvents ++ [(env, reason)] }
  match args.fallbackDestinationId with
  | none =>
    if sourceIsWazuh labels then loop
    else { result with
      unrouted := result.unrouted + 1
      unroutedEvents := result.unroutedEvents ++ [env] }
  | some fb =>
    if sourceIsWazuh labels && args.loopIds.contains fb then loop
    else { result with
      subBatches := result.subBatches.push fb env
      fallback := result.fallback + 1 }

def recordDrop (result : BatchRouting) (env labels : Obj) (decision : EventRouting) :
    BatchRouting :=
  { result with
    dropped := result.dropped + 1
    droppedEvents := result.droppedEvents ++ [(env, decision.dropRouteId.getD "")]
    droppedBytesPerOrg :=
      if args.measureDropBytes then
        creditBytes labels (rt.dumpsSize (.obj env)) result.droppedBytesPerOrg
      else result.droppedBytesPerOrg }

/-- One route per destination: the first, unless a later one redacts and it does not. -/
def chooseRoutes (assignments : List (String × CompiledRoute)) : Dict String CompiledRoute :=
  assignments.foldl (Dict.pick CompiledRoute.redacts) .empty

def dropLoops (labels : Obj) (chosen : Dict String CompiledRoute) : Dict String CompiledRoute :=
  if sourceIsWazuh labels then chosen.filterKeys (fun d => !args.loopIds.contains d) else chosen

def conflicts (labels : Obj) (dest : String) : Bool :=
  residencyConflict rt (args.residencyOf dest) (eventGeo labels)

def blockedBy (labels : Obj) (chosen : Dict String CompiledRoute) : List String :=
  (chosen.entries.map Prod.fst).filter (conflicts rt args labels)

def dropConflicts (labels : Obj) (chosen : Dict String CompiledRoute) :
    Dict String CompiledRoute :=
  chosen.filterKeys (fun d => !conflicts rt args labels d)

def recordBlocked (result : BatchRouting) (env : Obj) (blocked : List String) : BatchRouting :=
  { result with
    residencyBlocked := result.residencyBlocked + blocked.length
    residencyBlockedEvents := result.residencyBlockedEvents ++ blocked.map (fun d => (env, d)) }

/-- The route's copy carries a `sample_rate` label. -/
def labelsSample (route : CompiledRoute) : Bool :=
  match args.sampling with
  | none => false
  | some cfg => cfg.enabled && decide (route.samplePercent < 100) &&
      !(route.protectDetection && cfg.protectDetectionEnforced)

def redactedCopy (route : CompiledRoute) (env : Obj) : Obj :=
  redact rt route.redaction
    (if labelsSample args route then withSampleRate env route.samplePercent else env)

def dropsRaw (route : CompiledRoute) : Bool := route.dropRaw && !route.protectDetection

def deliveredCopy (route : CompiledRoute) (env : Obj) : Obj :=
  let out := redactedCopy rt args route env
  if dropsRaw route then (withoutRaw out).getD out else out

def rawBytesSaved (route : CompiledRoute) (env : Obj) : Nat :=
  if dropsRaw route && args.measureDropBytes then
    rt.dumpsSize (.obj (redactedCopy rt args route env)) -
      rt.dumpsSize (.obj (deliveredCopy rt args route env))
  else 0

def recordSample (result : BatchRouting) (env labels : Obj) (dest : String)
    (route : CompiledRoute) : BatchRouting :=
  { result with
    sampled := result.sampled + 1
    sampledPerRoute := result.sampledPerRoute.bump route.id 1
    sampledEvents := result.sampledEvents ++ [(env, dest, route.id)]
    sampledBytesPerOrg :=
      creditBytes labels (rt.dumpsSize (.obj env)) result.sampledBytesPerOrg }

def recordDelivery (result : BatchRouting) (env labels : Obj) (dest : String)
    (route : CompiledRoute) : BatchRouting :=
  { result with
    subBatches := result.subBatches.push dest (deliveredCopy rt args route env)
    rawDroppedBytesPerOrg :=
      creditBytes labels (rawBytesSaved rt args route env) result.rawDroppedBytesPerOrg }

/-- The loop over `chosen.items()`, with its `delivered_any` flag. -/
def deliverChosen (env labels : Obj) : List (String × CompiledRoute) → BatchRouting → Bool →
    BatchRouting × Bool
  | [], result, delivered => (result, delivered)
  | (dest, route) :: rest, result, delivered =>
    if shouldSampleOut rt route (labelEventId rt labels) args.sampling then
      deliverChosen env labels rest (recordSample rt result env labels dest route) delivered
    else
      deliverChosen env labels rest (recordDelivery rt args result env labels dest route) true

def routeChosen (result : BatchRouting) (env labels : Obj)
    (chosen : Dict String CompiledRoute) : BatchRouting :=
  let (result, delivered) := deliverChosen rt args env labels chosen.entries result false
  if delivered then { result with routed := result.routed + 1 } else result

def countMatched (result : BatchRouting) (ids : List String) : BatchRouting :=
  { result with perRoute := ids.foldl (fun d rid => d.bump rid 1) result.perRoute }

/-- The loop body of `route_batch`. -/
def routeEvent (result : BatchRouting) (env : Obj) : BatchRouting :=
  let labels := eventLabels env
  let decision := evaluateEvent rt labels args.ordered
  let result := countMatched result decision.matchedRouteIds
  if decision.dropped then recordDrop rt args result env labels decision
  else if decision.assignments.isEmpty then
    noDestination args result env labels "no-explicit-destination"
  else
    let candidates := dropLoops args labels (chooseRoutes decision.assignments)
    let result := recordBlocked result env (blockedBy rt args labels candidates)
    let chosen := dropConflicts rt args labels candidates
    if chosen.isEmpty then noDestination args result env labels "all-destinations-loop"
    else routeChosen rt args result env labels chosen

def routeBatch (batch : List Obj) : BatchRouting := batch.foldl (routeEvent rt args) {}

end Loop

end CentralOps
