import CentralOps.Routing.Engine

namespace CentralOps
set_option autoImplicit true

/-- What can become of one event of a batch. -/
inductive Outcome where
  | dropped | fallback | unrouted | loopBlocked | routed | sampledOut
  deriving DecidableEq

def BatchRouting.counter (result : BatchRouting) : Outcome → Nat
  | .dropped => result.dropped
  | .fallback => result.fallback
  | .unrouted => result.unrouted
  | .loopBlocked => result.loopBlocked
  | .routed => result.routed
  | .sampledOut => 0

section Verdict
variable (rt : Runtime) (args : RouteArgs)

def decisionOf (env : Obj) : EventRouting := evaluateEvent rt (eventLabels env) args.ordered

/-- Destinations left by the anti-loop filter, each with its route. -/
def candidatesOf (env : Obj) : Dict String CompiledRoute :=
  dropLoops args (eventLabels env) (chooseRoutes (decisionOf rt args env).assignments)

/-- Destinations left by both filters. -/
def survivingOf (env : Obj) : Dict String CompiledRoute :=
  dropConflicts rt args (eventLabels env) (candidatesOf rt args env)

def sampledOutOf (env : Obj) (route : CompiledRoute) : Bool :=
  shouldSampleOut rt route (labelEventId rt (eventLabels env)) args.sampling

def sinkless (env : Obj) : Outcome :=
  match args.fallbackDestinationId with
  | none => if sourceIsWazuh (eventLabels env) then .loopBlocked else .unrouted
  | some fb =>
    if sourceIsWazuh (eventLabels env) && args.loopIds.contains fb then .loopBlocked
    else .fallback

def outcomeOf (env : Obj) : Outcome :=
  if (decisionOf rt args env).dropped then .dropped
  else if (survivingOf rt args env).isEmpty then sinkless args env
  else if (survivingOf rt args env).entries.all (fun p => sampledOutOf rt args env p.2) then
    .sampledOut
  else .routed

/-- The entries a route set puts into the sub-batches. -/
def copiesOf (env : Obj) (entries : List (String × CompiledRoute)) : List (String × Obj) :=
  (entries.filter (fun p => !sampledOutOf rt args env p.2)).map
    (fun p => (p.1, deliveredCopy rt args p.2 env))

/-- The entry the fallback path adds: the envelope as it came. -/
def sinkSends (env : Obj) : List (String × Obj) :=
  if sinkless args env = .fallback then
    args.fallbackDestinationId.toList.map (fun fb => (fb, env))
  else []

def sendsOf (env : Obj) : List (String × Obj) :=
  if (decisionOf rt args env).dropped then []
  else if (survivingOf rt args env).isEmpty then sinkSends args env
  else copiesOf rt args env (survivingOf rt args env).entries

def sampledOf (env : Obj) (entries : List (String × CompiledRoute)) : List (String × String) :=
  (entries.filter (fun p => sampledOutOf rt args env p.2)).map (fun p => (p.1, p.2.id))

def blockedOf (env : Obj) : List String :=
  blockedBy rt args (eventLabels env) (candidatesOf rt args env)

/-- The copy of an event that ends up in `sub_batches[dest]`. -/
def copyFor (env : Obj) (dest : String) : Option Obj :=
  if (decisionOf rt args env).dropped then none
  else if (survivingOf rt args env).isEmpty then
    if sinkless args env = .fallback ∧ args.fallbackDestinationId = some dest then some env
    else none
  else ((survivingOf rt args env).get? dest).bind
    (fun r => if sampledOutOf rt args env r then none else some (deliveredCopy rt args r env))

structure Extends (env : Obj) (outcome : Outcome) (sends : List (String × Obj))
    (sampled : List (String × String)) (blocked : List String)
    (result result' : BatchRouting) : Prop where
  sends : result'.subBatches = result.subBatches.pushAll sends
  sampled : result'.sampledEvents = result.sampledEvents ++ sampled.map (fun p => (env, p))
  blocked : result'.residencyBlockedEvents =
    result.residencyBlockedEvents ++ blocked.map (fun d => (env, d))
  counters : ∀ o, o ≠ .sampledOut →
    result'.counter o = result.counter o + if outcome = o then 1 else 0

end Verdict

section Evaluate
variable (rt : Runtime) (labels : Obj)

def CompiledRoute.stops (r : CompiledRoute) : Bool := r.isFinal || r.action = .drop

def appliedRoutes : List CompiledRoute → List CompiledRoute
  | [] => []
  | r :: rest =>
    if !applies rt labels r then appliedRoutes rest
    else if r.stops then [r]
    else r :: appliedRoutes rest

def hasDrop (routes : List CompiledRoute) : Bool := routes.any (fun r => r.action = .drop)

def assignmentsOf (routes : List CompiledRoute) : List (String × CompiledRoute) :=
  routes.flatMap (fun r => r.destinationIds.map (fun d => (d, r)))

variable {rt labels}

theorem evaluateLoop_applied (routes : List CompiledRoute) (dests ids : List String)
    (asg : List (String × CompiledRoute)) :
    let out := evaluateLoop rt labels routes dests ids asg
    let applied := appliedRoutes rt labels routes
    out.dropped = hasDrop applied ∧
    out.matchedRouteIds = (ids ++ applied.map CompiledRoute.id).dedup ∧
    out.assignments = if hasDrop applied then [] else asg ++ assignmentsOf applied := by
  induction routes generalizing dests ids asg with
  | nil => simp [evaluateLoop, appliedRoutes, hasDrop, assignmentsOf]
  | cons r routes ih =>
    by_cases happ : applies rt labels r = true
    · by_cases hdrop : r.action = .drop
      · simp [evaluateLoop, appliedRoutes, hasDrop, CompiledRoute.stops, happ, hdrop]
      · by_cases hfin : r.isFinal = true
        · simp [evaluateLoop, appliedRoutes, hasDrop, CompiledRoute.stops, assignmentsOf, happ,
            hdrop, hfin]
        · obtain ⟨h1, h2, h3⟩ := ih (dests ++ r.destinationIds) (ids ++ [r.id])
            (asg ++ r.destinationIds.map (fun d => (d, r)))
          simp only [evaluateLoop, appliedRoutes, CompiledRoute.stops, happ, hdrop, hfin,
            Bool.not_true, Bool.false_eq_true, if_false, decide_false, Bool.or_self]
          have hd : hasDrop (r :: appliedRoutes rt labels routes) =
              hasDrop (appliedRoutes rt labels routes) := by simp [hasDrop, hdrop]
          rw [hd]
          refine ⟨h1, ?_, ?_⟩
          · rw [h2, List.map_cons, List.append_assoc, List.singleton_append]
          · rw [h3, List.append_assoc]
            rfl
    · simpa [evaluateLoop, appliedRoutes, happ] using ih dests ids asg

theorem evaluateLoop_destinations (routes : List CompiledRoute) (dests ids : List String)
    (asg : List (String × CompiledRoute)) (hasg : dests = asg.map Prod.fst) :
    (evaluateLoop rt labels routes dests ids asg).destinations =
      ((evaluateLoop rt labels routes dests ids asg).assignments.map Prod.fst).toFinset := by
  induction routes generalizing dests ids asg with
  | nil => simp only [evaluateLoop, hasg]
  | cons r routes ih =>
    have hnext : dests ++ r.destinationIds =
        (asg ++ r.destinationIds.map (fun d => (d, r))).map Prod.fst := by
      simp [hasg, Function.comp_def]
    unfold evaluateLoop
    split
    · exact ih dests ids asg hasg
    · dsimp only
      split
      · simp
      · split
        · simp only [hnext]
        · exact ih _ _ _ hnext

theorem evaluateEvent_destinations (rt : Runtime) (labels : Obj) (routes : List CompiledRoute) :
    (evaluateEvent rt labels routes).destinations =
      ((evaluateEvent rt labels routes).assignments.map Prod.fst).toFinset :=
  evaluateLoop_destinations routes [] [] [] rfl

theorem evaluateEvent_matched (routes : List CompiledRoute) :
    (evaluateEvent rt labels routes).matchedRouteIds =
      ((appliedRoutes rt labels routes).map CompiledRoute.id).dedup :=
  (evaluateLoop_applied routes [] [] []).2.1

theorem evaluateEvent_assignments (routes : List CompiledRoute) :
    (evaluateEvent rt labels routes).assignments =
      if hasDrop (appliedRoutes rt labels routes) then []
      else assignmentsOf (appliedRoutes rt labels routes) :=
  (evaluateLoop_applied routes [] [] []).2.2

theorem evaluateEvent_dropped {routes : List CompiledRoute}
    (h : (evaluateEvent rt labels routes).dropped = true) :
    (evaluateEvent rt labels routes).assignments = [] := by
  have hd : (evaluateEvent rt labels routes).dropped = hasDrop (appliedRoutes rt labels routes) :=
    (evaluateLoop_applied routes [] [] []).1
  rw [evaluateEvent_assignments, ← hd, h, if_pos rfl]

theorem mem_appliedRoutes {before after : List CompiledRoute} (hr : applies rt labels r = true)
    (hbefore : ∀ e ∈ before, applies rt labels e = true → ¬ e.stops = true) :
    r ∈ appliedRoutes rt labels (before ++ r :: after) := by
  induction before with
  | nil =>
    rw [List.nil_append, appliedRoutes, hr]
    split
    · contradiction
    · split
      · exact List.mem_singleton_self r
      · exact List.mem_cons_self
  | cons e before ih =>
    have hrest := ih fun d hd => hbefore d (List.mem_cons_of_mem e hd)
    rw [List.cons_append, appliedRoutes]
    split
    · exact hrest
    · next happlies =>
      rw [Bool.not_eq_true', Bool.not_eq_false] at happlies
      rw [if_neg (hbefore e List.mem_cons_self happlies)]
      exact List.mem_cons_of_mem e hrest

theorem of_mem_appliedRoutes {routes : List CompiledRoute} (h : r ∈ appliedRoutes rt labels routes) :
    r ∈ routes ∧ applies rt labels r = true := by
  induction routes with
  | nil => cases h
  | cons e routes ih =>
    rw [appliedRoutes] at h
    split at h
    · exact (ih h).imp_left (List.mem_cons_of_mem e)
    · next happlies =>
      rw [Bool.not_eq_true', Bool.not_eq_false] at happlies
      split at h
      · cases List.mem_singleton.1 h
        exact ⟨List.mem_cons_self, happlies⟩
      · obtain rfl | h := List.mem_cons.1 h
        · exact ⟨List.mem_cons_self, happlies⟩
        · exact (ih h).imp_left (List.mem_cons_of_mem e)

theorem appliedRoutes_stop {before after : List CompiledRoute} (he : e ∈ before)
    (happlies : applies rt labels e = true) (hstops : e.stops = true)
    (hr : r ∈ appliedRoutes rt labels (before ++ after)) : r ∈ before := by
  induction before with
  | nil => cases he
  | cons d before ih =>
    rw [List.cons_append, appliedRoutes] at hr
    split at hr
    · next hd =>
      obtain rfl | he := List.mem_cons.1 he
      · rw [happlies] at hd
        cases hd
      · exact List.mem_cons_of_mem d (ih he hr)
    · split at hr
      · cases List.mem_singleton.1 hr
        exact List.mem_cons_self
      · next hd =>
        obtain rfl | he := List.mem_cons.1 he
        · exact absurd hstops hd
        · obtain rfl | hr := List.mem_cons.1 hr
          · exact List.mem_cons_self
          · exact List.mem_cons_of_mem d (ih he hr)

theorem mem_matchedRouteIds {routes : List CompiledRoute} :
    rid ∈ (evaluateEvent rt labels routes).matchedRouteIds ↔
      ∃ r ∈ appliedRoutes rt labels routes, r.id = rid := by
  rw [evaluateEvent_matched, List.mem_dedup, List.mem_map]

theorem mem_assignmentsOf {routes : List CompiledRoute} :
    (d, r) ∈ assignmentsOf routes ↔ r ∈ routes ∧ d ∈ r.destinationIds := by
  simp only [assignmentsOf, List.mem_flatMap, List.mem_map, Prod.mk.injEq]
  constructor
  · rintro ⟨s, hs, d', hd', rfl, rfl⟩
    exact ⟨hs, hd'⟩
  · rintro ⟨hr, hd⟩
    exact ⟨r, hr, d, hd, rfl, rfl⟩

end Evaluate

theorem recordBlocked_extends (h : Extends env o ss sm [] (recordBlocked result env bl) result') :
    Extends env o ss sm bl result result' := by
  obtain ⟨h1, h2, h3, h4⟩ := h
  refine ⟨h1, h2, ?_, h4⟩
  rw [h3]
  simp only [recordBlocked, List.map_nil, List.append_nil]

theorem countMatched_extends (h : Extends env o ss sm bl (countMatched result ids) result') :
    Extends env o ss sm bl result result' :=
  ⟨h.sends, h.sampled, h.blocked, h.counters⟩

section Step
variable (rt : Runtime) (args : RouteArgs) (env : Obj)

theorem noDestination_extends (result : BatchRouting) (reason : String) :
    Extends env (sinkless args env) (sinkSends args env) [] [] result
      (noDestination args result env (eventLabels env) reason) := by
  unfold sinkSends sinkless noDestination
  cases hfb : args.fallbackDestinationId with
  | none =>
    dsimp only
    split <;> refine ⟨rfl, by simp, by simp, ?_⟩ <;> intro o _ <;> cases o <;> rfl
  | some fb =>
    dsimp only
    split <;> refine ⟨rfl, by simp, by simp, ?_⟩ <;> intro o _ <;> cases o <;> rfl

theorem deliverChosen_spec (entries : List (String × CompiledRoute)) (result : BatchRouting)
    (delivered : Bool) :
    let out := deliverChosen rt args env (eventLabels env) entries result delivered
    out.1.subBatches = result.subBatches.pushAll (copiesOf rt args env entries) ∧
    out.1.sampledEvents =
      result.sampledEvents ++ (sampledOf rt args env entries).map (fun p => (env, p)) ∧
    out.1.residencyBlockedEvents = result.residencyBlockedEvents ∧
    out.1.counter = result.counter ∧
    out.2 = (delivered || !entries.all (fun p => sampledOutOf rt args env p.2)) := by
  induction entries generalizing result delivered with
  | nil => simp [deliverChosen, copiesOf, sampledOf, Dict.pushAll]
  | cons p entries ih =>
    obtain ⟨dest, route⟩ := p
    by_cases hs : sampledOutOf rt args env route = true
    · have hs' : shouldSampleOut rt route (labelEventId rt (eventLabels env))
          args.sampling = true := hs
      obtain ⟨h1, h2, h3, h4, h5⟩ :=
        ih (recordSample rt result env (eventLabels env) dest route) delivered
      simp only [deliverChosen, hs', if_true]
      refine ⟨?_, ?_, h3, ?_, ?_⟩
      · simpa [copiesOf, hs, recordSample] using h1
      · simpa [sampledOf, hs, recordSample] using h2
      · rw [h4]; funext o; cases o <;> rfl
      · simpa [hs] using h5
    · have hs' : shouldSampleOut rt route (labelEventId rt (eventLabels env))
          args.sampling = false := Bool.eq_false_iff.2 hs
      obtain ⟨h1, h2, h3, h4, h5⟩ :=
        ih (recordDelivery rt args result env (eventLabels env) dest route) true
      simp only [deliverChosen, hs', Bool.false_eq_true, if_false]
      refine ⟨?_, ?_, h3, ?_, ?_⟩
      · simpa [copiesOf, hs, recordDelivery, Dict.pushAll] using h1
      · simpa [sampledOf, hs, recordDelivery] using h2
      · rw [h4]; funext o; cases o <;> rfl
      · simpa [hs] using h5

theorem routeChosen_extends (result : BatchRouting) (chosen : Dict String CompiledRoute) :
    let allOut := chosen.entries.all (fun p => sampledOutOf rt args env p.2)
    Extends env (if allOut then .sampledOut else .routed) (copiesOf rt args env chosen.entries)
      (sampledOf rt args env chosen.entries) [] result
      (routeChosen rt args result env (eventLabels env) chosen) := by
  obtain ⟨h1, h2, h3, h4, h5⟩ := deliverChosen_spec rt args env chosen.entries result false
  simp only [Bool.false_or] at h5
  simp only [routeChosen, h5]
  cases hall : chosen.entries.all (fun p => sampledOutOf rt args env p.2) with
  | true =>
    refine ⟨h1, h2, by rw [List.map_nil, List.append_nil]; exact h3, ?_⟩
    intro o ho
    simp [Ne.symm ho, congrFun h4 o]
  | false =>
    refine ⟨h1, h2, by rw [List.map_nil, List.append_nil]; exact h3, ?_⟩
    intro o _
    have hc := congrFun h4 o
    cases o <;> simp [BatchRouting.counter] at hc ⊢ <;> exact hc

theorem survivingOf_empty_of_assignments (h : (decisionOf rt args env).assignments = []) :
    candidatesOf rt args env = .empty ∧ survivingOf rt args env = .empty := by
  have hc : candidatesOf rt args env = .empty := by
    unfold candidatesOf dropLoops
    rw [h]
    split <;> rfl
  refine ⟨hc, ?_⟩
  unfold survivingOf
  rw [hc]
  rfl

theorem recordDrop_extends (result : BatchRouting) (decision : EventRouting) :
    Extends env .dropped [] [] [] result
      (recordDrop rt args result env (eventLabels env) decision) := by
  refine ⟨rfl, by simp [recordDrop], by simp [recordDrop], ?_⟩
  intro o _
  cases o <;> rfl

/-- The loop body realises the verdict of its event. -/
theorem routeEvent_extends (result : BatchRouting) :
    Extends env (outcomeOf rt args env) (sendsOf rt args env)
      (sampledOf rt args env (survivingOf rt args env).entries) (blockedOf rt args env)
      result (routeEvent rt args result env) := by
  change Extends _ _ _ _ _ _
    (if (decisionOf rt args env).dropped = true then _
      else if (decisionOf rt args env).assignments.isEmpty = true then _
      else if (survivingOf rt args env).isEmpty = true then _ else _)
  by_cases hd : (decisionOf rt args env).dropped = true
  · obtain ⟨hc, hs⟩ := survivingOf_empty_of_assignments rt args env (evaluateEvent_dropped hd)
    simp only [outcomeOf, sendsOf, blockedOf, hd, hc, hs, if_true]
    exact countMatched_extends (recordDrop_extends rt args env _ _)
  simp only [outcomeOf, sendsOf, if_neg hd]
  by_cases ha : (decisionOf rt args env).assignments.isEmpty = true
  · obtain ⟨hc, hs⟩ := survivingOf_empty_of_assignments rt args env (by simpa using ha)
    simp only [blockedOf, ha, hc, hs, if_true]
    exact countMatched_extends (noDestination_extends args env _ _)
  rw [if_neg ha]
  by_cases hs : (survivingOf rt args env).isEmpty = true
  · have he : (survivingOf rt args env).entries = [] := by simpa [Dict.isEmpty] using hs
    simp only [hs, he, if_true]
    exact countMatched_extends (recordBlocked_extends (noDestination_extends args env _ _))
  · simp only [if_neg hs]
    exact countMatched_extends (recordBlocked_extends (routeChosen_extends rt args env _ _))

end Step

section Destinations
variable (rt : Runtime) (args : RouteArgs) (env : Obj)

def loops (env : Obj) (dest : String) : Bool :=
  sourceIsWazuh (eventLabels env) && args.loopIds.contains dest

/-- The route a destination is settled on: the first redacting one, else the first. -/
def winnerOf (env : Obj) (dest : String) : Option CompiledRoute :=
  Dict.preferred CompiledRoute.redacts (Assoc.values dest (decisionOf rt args env).assignments)

theorem candidatesOf_get? (dest : String) :
    (candidatesOf rt args env).get? dest =
      if loops args env dest then none else winnerOf rt args env dest := by
  have hw : (chooseRoutes (decisionOf rt args env).assignments).get? dest =
      winnerOf rt args env dest := Dict.get?_foldl_pick _ _ dest
  unfold candidatesOf dropLoops loops
  by_cases hz : sourceIsWazuh (eventLabels env) = true
  · simp [hz, hw]
  · simp [hz, hw]

theorem survivingOf_get? (dest : String) :
    (survivingOf rt args env).get? dest =
      if loops args env dest || conflicts rt args (eventLabels env) dest then none
      else winnerOf rt args env dest := by
  unfold survivingOf dropConflicts
  rw [Dict.get?_filterKeys, candidatesOf_get?]
  cases loops args env dest <;> cases conflicts rt args (eventLabels env) dest <;> rfl

theorem mem_destinations {dest : String} :
    dest ∈ (decisionOf rt args env).destinations ↔
      ∃ r, (dest, r) ∈ (decisionOf rt args env).assignments := by
  unfold decisionOf
  rw [evaluateEvent_destinations]
  simp

theorem winnerOf_isSome {dest : String} :
    dest ∈ (decisionOf rt args env).destinations ↔ ∃ w, winnerOf rt args env dest = some w := by
  rw [mem_destinations]
  constructor
  · rintro ⟨r, hr⟩
    exact Dict.preferred_isSome (Assoc.mem_values.2 hr)
  · rintro ⟨w, hw⟩
    exact ⟨w, Assoc.mem_values.1 (Dict.preferred_mem hw)⟩

/-- No destination survives exactly when every assigned one is removed by a filter. -/
theorem survivingOf_isEmpty_iff :
    (survivingOf rt args env).isEmpty = true ↔ ∀ d ∈ (decisionOf rt args env).destinations,
      loops args env d = true ∨ conflicts rt args (eventLabels env) d = true := by
  rw [Dict.isEmpty_iff]
  constructor
  · intro h d hd
    obtain ⟨w, hw⟩ := (winnerOf_isSome rt args env).1 hd
    have hn := h d
    rw [survivingOf_get?, hw] at hn
    by_contra hr
    rw [← Bool.or_eq_true] at hr
    rw [if_neg hr] at hn
    cases hn
  · intro h d
    rw [survivingOf_get?]
    cases hw : winnerOf rt args env d with
    | none => simp
    | some w =>
      have hr := h d ((winnerOf_isSome rt args env).2 ⟨w, hw⟩)
      rw [← Bool.or_eq_true] at hr
      exact if_pos hr

theorem values_copiesOf (chosen : Dict String CompiledRoute) (dest : String) :
    Assoc.values dest (copiesOf rt args env chosen.entries) =
      ((chosen.get? dest).bind (fun r => if sampledOutOf rt args env r then none
        else some (deliveredCopy rt args r env))).toList := by
  have hf : Assoc.values dest (copiesOf rt args env chosen.entries) =
      ((chosen.entries.filter (fun p => p.1 = dest)).filter
        (fun p => !sampledOutOf rt args env p.2)).map
          (fun p => deliveredCopy rt args p.2 env) := by
    simp only [Assoc.values, copiesOf, List.filter_map, List.map_map, List.filter_filter,
      Function.comp_def, Bool.and_comm]
  rw [hf, Dict.filter_key_eq]
  cases chosen.get? dest with
  | none => rfl
  | some r => by_cases hs : sampledOutOf rt args env r = true <;> simp [hs]

theorem values_sendsOf (dest : String) :
    Assoc.values dest (sendsOf rt args env) = (copyFor rt args env dest).toList := by
  unfold sendsOf copyFor
  split
  · rfl
  · split
    · unfold sinkSends
      cases args.fallbackDestinationId with
      | none => by_cases hs : sinkless args env = .fallback <;> simp [hs, Assoc.values]
      | some fb =>
        by_cases hs : sinkless args env = .fallback <;> by_cases hd : fb = dest <;>
          simp [hs, hd, Assoc.values]
    · exact values_copiesOf rt args env _ dest

theorem sinkless_fallback_iff :
    sinkless args env = .fallback ↔
      ∃ fb, args.fallbackDestinationId = some fb ∧ loops args env fb = false := by
  unfold sinkless loops
  cases args.fallbackDestinationId with
  | none => by_cases hz : sourceIsWazuh (eventLabels env) = true <;> simp [hz]
  | some fb => simp

/-- The event has no destination left and the fallback takes it. -/
structure TakesFallback (env : Obj) (dest : String) : Prop where
  not_dropped : (decisionOf rt args env).dropped = false
  fallback : args.fallbackDestinationId = some dest
  no_loop : loops args env dest = false
  removed : ∀ d ∈ (decisionOf rt args env).destinations,
    loops args env d = true ∨ conflicts rt args (eventLabels env) d = true

variable {rt args env}

theorem TakesFallback.isEmpty (h : TakesFallback rt args env dest) :
    (survivingOf rt args env).isEmpty = true :=
  (survivingOf_isEmpty_iff rt args env).2 h.removed

theorem TakesFallback.sinkless_eq (h : TakesFallback rt args env dest) :
    sinkless args env = .fallback :=
  (sinkless_fallback_iff args env).2 ⟨dest, h.fallback, h.no_loop⟩

theorem TakesFallback.outcome (h : TakesFallback rt args env dest) :
    outcomeOf rt args env = .fallback := by
  rw [outcomeOf, h.not_dropped, if_neg Bool.false_ne_true, if_pos h.isEmpty, h.sinkless_eq]

theorem copyFor_fallback (h : TakesFallback rt args env dest) :
    copyFor rt args env dest = some env := by
  rw [copyFor, h.not_dropped, if_neg Bool.false_ne_true, if_pos h.isEmpty,
    if_pos ⟨h.sinkless_eq, h.fallback⟩]

theorem survivingOf_winner (hw : winnerOf rt args env dest = some w)
    (hl : loops args env dest = false) (hc : conflicts rt args (eventLabels env) dest = false) :
    (survivingOf rt args env).get? dest = some w ∧
      ¬ (survivingOf rt args env).isEmpty = true := by
  have hget : (survivingOf rt args env).get? dest = some w := by
    rw [survivingOf_get?, hl, hc, hw]
    rfl
  refine ⟨hget, ?_⟩
  intro he
  rw [Dict.isEmpty_iff] at he
  rw [he dest] at hget
  cases hget

theorem not_dropped_of_mem (h : dest ∈ (decisionOf rt args env).destinations) :
    (decisionOf rt args env).dropped = false := by
  obtain ⟨r, hr⟩ := (mem_destinations rt args env).1 h
  by_contra hd
  rw [Bool.not_eq_false] at hd
  rw [show (decisionOf rt args env).assignments = [] from evaluateEvent_dropped hd] at hr
  cases hr

theorem copyFor_winner (hw : winnerOf rt args env dest = some w)
    (hl : loops args env dest = false) (hc : conflicts rt args (eventLabels env) dest = false) :
    copyFor rt args env dest =
      if sampledOutOf rt args env w then none else some (deliveredCopy rt args w env) := by
  have hd := not_dropped_of_mem ((winnerOf_isSome rt args env).2 ⟨w, hw⟩)
  obtain ⟨hget, hne⟩ := survivingOf_winner hw hl hc
  rw [copyFor, hd, if_neg Bool.false_ne_true, if_neg hne, hget]
  rfl

theorem copyFor_cases (h : copyFor rt args env dest = some x) :
    (TakesFallback rt args env dest ∧ x = env) ∨
    ∃ w, winnerOf rt args env dest = some w ∧ loops args env dest = false ∧
      conflicts rt args (eventLabels env) dest = false ∧
      sampledOutOf rt args env w = false ∧ x = deliveredCopy rt args w env := by
  unfold copyFor at h
  split at h
  · cases h
  next hd =>
  split at h
  · next he =>
    split at h
    · next hs =>
      obtain ⟨fb, hfb, hl⟩ := (sinkless_fallback_iff args env).1 hs.1
      obtain rfl : dest = fb := Option.some.inj (hs.2.symm.trans hfb)
      refine .inl ⟨⟨Bool.eq_false_iff.2 hd, hfb, hl, ?_⟩, (Option.some.inj h).symm⟩
      exact (survivingOf_isEmpty_iff rt args env).1 he
    · cases h
  · rw [survivingOf_get?] at h
    split at h
    · cases h
    next hr =>
    obtain ⟨hl, hc⟩ := Bool.or_eq_false_iff.1 (Bool.eq_false_iff.2 hr)
    obtain ⟨w, hw, hx⟩ := Option.bind_eq_some_iff.1 h
    split at hx
    · cases hx
    next hs =>
    exact .inr ⟨w, hw, hl, hc, Bool.eq_false_iff.2 hs, (Option.some.inj hx).symm⟩

end Destinations

section Labels
variable {rt : Runtime} {args : RouteArgs}

theorem eventLabels_congr (h : o.lookup "_centralops" = o'.lookup "_centralops") :
    eventLabels o = eventLabels o' := by
  simp only [eventLabels, Obj.getN, h]

theorem eventLabels_set (o labels : Obj) :
    eventLabels (Assoc.set "_centralops" (.obj labels) o) = labels := by
  simp only [eventLabels, Obj.getN, Assoc.lookup_set_self, Option.getD_some, Json.asObj]

theorem withoutRaw_label (hk : k ≠ "raw_dropped") (o : Obj) :
    (eventLabels ((withoutRaw o).getD o)).lookup k = (eventLabels o).lookup k := by
  unfold withoutRaw
  split
  · rfl
  · rw [Option.getD_some, eventLabels_set, Assoc.lookup_set_ne hk]
    rw [eventLabels_congr (Assoc.lookup_erase_ne (by decide) o)]

theorem deliveredCopy_label (hk : k ≠ "sample_rate") (hk' : k ≠ "raw_dropped")
    (w : CompiledRoute) (env : Obj) :
    (eventLabels (deliveredCopy rt args w env)).lookup k = (eventLabels env).lookup k := by
  have hred : (eventLabels (redactedCopy rt args w env)).lookup k =
      (eventLabels env).lookup k := by
    unfold redactedCopy
    rw [eventLabels_congr (redact_centralops rt w.redaction _)]
    split
    · rw [withSampleRate, eventLabels_set, Assoc.lookup_set_ne hk]
    · rfl
  rw [← hred]
  unfold deliveredCopy
  dsimp only
  split
  · exact withoutRaw_label hk' _
  · rfl

end Labels

section Positions
variable (rt : Runtime) (args : RouteArgs) (batch : List Obj)

/-- What position `i` of the batch adds to `sub_batches[dest]`. -/
def copiesAt (i : Nat) (dest : String) : List Obj :=
  ((routeBatch rt args (batch.take (i + 1))).subBatches.bucket dest).drop
    ((routeBatch rt args (batch.take i)).subBatches.bucket dest).length

def sampledAt (i : Nat) : List (Obj × String × String) :=
  (routeBatch rt args (batch.take (i + 1))).sampledEvents.drop
    (routeBatch rt args (batch.take i)).sampledEvents.length

def blockedAt (i : Nat) : List (Obj × String) :=
  (routeBatch rt args (batch.take (i + 1))).residencyBlockedEvents.drop
    (routeBatch rt args (batch.take i)).residencyBlockedEvents.length

variable {rt args batch}

theorem routeBatch_append_one (pre : List Obj) (env : Obj) :
    routeBatch rt args (pre ++ [env]) = routeEvent rt args (routeBatch rt args pre) env := by
  simp only [routeBatch, List.foldl_append, List.foldl_cons, List.foldl_nil]

theorem routeBatch_take_succ (h : batch[i]? = some env) :
    routeBatch rt args (batch.take (i + 1)) =
      routeEvent rt args (routeBatch rt args (batch.take i)) env := by
  rw [List.take_add_one, h, Option.toList_some, routeBatch_append_one]

theorem position_extends (h : batch[i]? = some env) :
    Extends env (outcomeOf rt args env) (sendsOf rt args env)
      (sampledOf rt args env (survivingOf rt args env).entries) (blockedOf rt args env)
      (routeBatch rt args (batch.take i)) (routeBatch rt args (batch.take (i + 1))) := by
  rw [routeBatch_take_succ h]
  exact routeEvent_extends rt args env _

theorem copiesAt_eq (h : batch[i]? = some env) (dest : String) :
    copiesAt rt args batch i dest = (copyFor rt args env dest).toList := by
  unfold copiesAt
  rw [(position_extends h).sends, Dict.bucket_pushAll, List.drop_left, values_sendsOf]

theorem sampledAt_eq (h : batch[i]? = some env) :
    sampledAt rt args batch i =
      (sampledOf rt args env (survivingOf rt args env).entries).map (fun p => (env, p)) := by
  unfold sampledAt
  rw [(position_extends h).sampled, List.drop_left]

theorem blockedAt_eq (h : batch[i]? = some env) :
    blockedAt rt args batch i = (blockedOf rt args env).map (fun d => (env, d)) := by
  unfold blockedAt
  rw [(position_extends h).blocked, List.drop_left]

theorem bucket_take_succ (n : Nat) (dest : String) :
    (routeBatch rt args (batch.take (n + 1))).subBatches.bucket dest =
      (routeBatch rt args (batch.take n)).subBatches.bucket dest ++
        copiesAt rt args batch n dest := by
  cases h : batch[n]? with
  | none =>
    rw [copiesAt, List.take_add_one, h, Option.toList_none, List.append_nil, List.drop_length,
      List.append_nil]
  | some env =>
    rw [copiesAt_eq h, (position_extends h).sends, Dict.bucket_pushAll, values_sendsOf]

theorem bucket_routeBatch (dest : String) :
    (routeBatch rt args batch).subBatches.bucket dest =
      (List.range batch.length).flatMap (fun i => copiesAt rt args batch i dest) := by
  have hn : ∀ n, (routeBatch rt args (batch.take n)).subBatches.bucket dest =
      (List.range n).flatMap (fun i => copiesAt rt args batch i dest) := by
    intro n
    induction n with
    | zero => rfl
    | succ n ih => rw [bucket_take_succ, ih, List.range_succ, List.flatMap_append,
        List.flatMap_singleton]
  rw [← hn, List.take_length]

theorem mem_bucket_iff :
    x ∈ (routeBatch rt args batch).subBatches.bucket dest ↔
      ∃ env ∈ batch, copyFor rt args env dest = some x := by
  rw [bucket_routeBatch, List.mem_flatMap]
  constructor
  · rintro ⟨i, hi, hx⟩
    have hlt : i < batch.length := List.mem_range.1 hi
    have hget : batch[i]? = some batch[i] := List.getElem?_eq_getElem hlt
    rw [copiesAt_eq hget, Option.mem_toList] at hx
    exact ⟨_, List.mem_of_getElem? hget, hx⟩
  · rintro ⟨env, henv, hx⟩
    obtain ⟨i, hi⟩ := List.mem_iff_getElem?.1 henv
    refine ⟨i, List.mem_range.2 (List.getElem?_eq_some_iff.1 hi).1, ?_⟩
    rw [copiesAt_eq hi, Option.mem_toList]
    exact hx

end Positions

end CentralOps
