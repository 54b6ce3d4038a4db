import CentralOps.Routing.Copies

namespace CentralOps
set_option autoImplicit true

/-- Two results of routing, field by field: lists follow each other, counters add up. -/
def BatchRouting.merge (r s : BatchRouting) : BatchRouting where
  subBatches := r.subBatches.merge (· ++ ·) s.subBatches
  routed := r.routed + s.routed
  dropped := r.dropped + s.dropped
  fallback := r.fallback + s.fallback
  unrouted := r.unrouted + s.unrouted
  unroutedEvents := r.unroutedEvents ++ s.unroutedEvents
  perRoute := r.perRoute.merge (· + ·) s.perRoute
  residencyBlocked := r.residencyBlocked + s.residencyBlocked
  loopBlocked := r.loopBlocked + s.loopBlocked
  sampled := r.sampled + s.sampled
  sampledPerRoute := r.sampledPerRoute.merge (· + ·) s.sampledPerRoute
  sampledBytesPerOrg := r.sampledBytesPerOrg.merge (· + ·) s.sampledBytesPerOrg
  droppedBytesPerOrg := r.droppedBytesPerOrg.merge (· + ·) s.droppedBytesPerOrg
  rawDroppedBytesPerOrg := r.rawDroppedBytesPerOrg.merge (· + ·) s.rawDroppedBytesPerOrg
  droppedEvents := r.droppedEvents ++ s.droppedEvents
  loopBlockedEvents := r.loopBlockedEvents ++ s.loopBlockedEvents
  residencyBlockedEvents := r.residencyBlockedEvents ++ s.residencyBlockedEvents
  sampledEvents := r.sampledEvents ++ s.sampledEvents

namespace BatchRouting
variable (r s : BatchRouting)

theorem merge_empty : r.merge {} = r := by
  simp [merge]

section Updates
variable (rt : Runtime) (args : RouteArgs) (env labels : Obj)

theorem merge_creditBytes (d d' : Dict Json Nat) (nbytes : Nat) :
    d.merge (· + ·) (creditBytes labels nbytes d') =
      creditBytes labels nbytes (d.merge (· + ·) d') := by
  unfold creditBytes
  dsimp only
  split
  · rfl
  · exact Dict.merge_bump d d' _ nbytes

theorem merge_countMatched (ids : List String) :
    r.merge (countMatched s ids) = countMatched (r.merge s) ids := by
  have hids : ∀ d : Dict String Nat,
      r.perRoute.merge (· + ·) (ids.foldl (fun d rid => d.bump rid 1) d) =
        ids.foldl (fun d rid => d.bump rid 1) (r.perRoute.merge (· + ·) d) := by
    intro d
    induction ids generalizing d with
    | nil => rfl
    | cons rid ids ih => rw [List.foldl_cons, ih, Dict.merge_bump, List.foldl_cons]
  simp only [merge, countMatched, hids]

theorem merge_recordDrop (decision : EventRouting) :
    r.merge (recordDrop rt args s env labels decision) =
      recordDrop rt args (r.merge s) env labels decision := by
  cases hmeasure : args.measureDropBytes with
  | true => simp [merge, recordDrop, hmeasure, merge_creditBytes, Nat.add_assoc]
  | false => simp [merge, recordDrop, hmeasure, Nat.add_assoc]

theorem merge_noDestination (reason : String) :
    r.merge (noDestination args s env labels reason) =
      noDestination args (r.merge s) env labels reason := by
  unfold noDestination
  cases args.fallbackDestinationId with
  | none =>
    dsimp only
    split
    · simp [merge, Nat.add_assoc]
    · simp [merge, Nat.add_assoc]
  | some fb =>
    dsimp only
    split
    · simp [merge, Nat.add_assoc]
    · simp [merge, Nat.add_assoc, Dict.merge_push]

theorem merge_recordBlocked (blocked : List String) :
    r.merge (recordBlocked s env blocked) = recordBlocked (r.merge s) env blocked := by
  simp [merge, recordBlocked, Nat.add_assoc]

theorem merge_recordSample (dest : String) (route : CompiledRoute) :
    r.merge (recordSample rt s env labels dest route) =
      recordSample rt (r.merge s) env labels dest route := by
  simp [merge, recordSample, merge_creditBytes, Dict.merge_bump, Nat.add_assoc]

theorem merge_recordDelivery (dest : String) (route : CompiledRoute) :
    r.merge (recordDelivery rt args s env labels dest route) =
      recordDelivery rt args (r.merge s) env labels dest route := by
  simp [merge, recordDelivery, merge_creditBytes, Dict.merge_push]

theorem merge_deliverChosen (entries : List (String × CompiledRoute)) (delivered : Bool) :
    deliverChosen rt args env labels entries (r.merge s) delivered =
      (r.merge (deliverChosen rt args env labels entries s delivered).1,
        (deliverChosen rt args env labels entries s delivered).2) := by
  induction entries generalizing s delivered with
  | nil => rfl
  | cons p entries ih =>
    obtain ⟨dest, route⟩ := p
    simp only [deliverChosen]
    split
    · rw [← merge_recordSample, ih]
    · rw [← merge_recordDelivery, ih]

theorem merge_routeChosen (chosen : Dict String CompiledRoute) :
    r.merge (routeChosen rt args s env labels chosen) =
      routeChosen rt args (r.merge s) env labels chosen := by
  simp only [routeChosen, merge_deliverChosen]
  split
  · simp [merge, Nat.add_assoc]
  · rfl

theorem merge_routeEvent :
    r.merge (routeEvent rt args s env) = routeEvent rt args (r.merge s) env := by
  simp only [routeEvent]
  split
  · rw [merge_recordDrop, merge_countMatched]
  · split
    · rw [merge_noDestination, merge_countMatched]
    · split
      · rw [merge_noDestination, merge_recordBlocked, merge_countMatched]
      · rw [merge_routeChosen, merge_recordBlocked, merge_countMatched]

end Updates

end BatchRouting

theorem routeBatch_append (rt : Runtime) (args : RouteArgs) (batch₁ batch₂ : List Obj) :
    routeBatch rt args (batch₁ ++ batch₂) =
      (routeBatch rt args batch₁).merge (routeBatch rt args batch₂) := by
  have hrest := @List.foldl_hom _ _ _ (routeBatch rt args batch₁).merge (routeEvent rt args)
    (routeEvent rt args) batch₂ {}
    fun s env => (BatchRouting.merge_routeEvent _ s rt args env).symm
  rw [BatchRouting.merge_empty] at hrest
  rw [routeBatch, List.foldl_append]
  exact hrest

theorem routeLe_total (r s : CompiledRoute) : routeLe r s ∨ routeLe s r := by
  unfold routeLe
  obtain h | h | h := lt_trichotomy r.priority s.priority
  · exact .inl (.inl h)
  · by_cases hid : s.id < r.id
    · exact .inr (.inr ⟨h.symm, String.lt_asymm hid⟩)
    · exact .inl (.inr ⟨h, hid⟩)
  · exact .inr (.inl h)

theorem routeLe_trans {r s t : CompiledRoute} (hrs : routeLe r s) (hst : routeLe s t) :
    routeLe r t := by
  unfold routeLe at *
  obtain hrs | ⟨hrs, hid⟩ := hrs
  · obtain hst | ⟨hst, -⟩ := hst
    · exact .inl (hrs.trans hst)
    · exact .inl (hst ▸ hrs)
  · obtain hst | ⟨hst, hid'⟩ := hst
    · exact .inl (hrs ▸ hst)
    · exact .inr ⟨hrs.trans hst, String.le_trans hid hid'⟩

theorem routeLe_antisymm {r s : CompiledRoute} (hrs : routeLe r s) (hsr : routeLe s r) :
    r.id = s.id := by
  unfold routeLe at *
  obtain hrs | ⟨hrs, hid⟩ := hrs
  · obtain hsr | ⟨hsr, -⟩ := hsr
    · exact absurd hsr hrs.asymm
    · exact absurd hrs (hsr ▸ lt_irrefl _)
  · obtain hsr | ⟨-, hid'⟩ := hsr
    · exact absurd hsr (hrs ▸ lt_irrefl _)
    · exact String.le_antisymm hid hid'

theorem orderRoutes_perm {routes routes' : List CompiledRoute} (hperm : routes.Perm routes')
    (hids : (routes.map CompiledRoute.id).Nodup) : orderRoutes routes = orderRoutes routes' := by
  have : Std.Total routeLe := ⟨routeLe_total⟩
  have : IsTrans CompiledRoute routeLe := ⟨fun _ _ _ => routeLe_trans⟩
  have hsame := (List.perm_insertionSort routeLe routes).trans
    (hperm.trans (List.perm_insertionSort routeLe routes').symm)
  apply hsame.eq_of_pairwise _ (List.pairwise_insertionSort routeLe routes)
    (List.pairwise_insertionSort routeLe routes')
  intro r s hr hs hrs hsr
  exact List.inj_on_of_nodup_map hids ((List.mem_insertionSort _).1 hr)
    (hperm.mem_iff.2 ((List.mem_insertionSort _).1 hs)) (routeLe_antisymm hrs hsr)

/-- The routes matter to an event through their evaluation alone. -/
theorem routeEvent_congr (rt : Runtime) {args : RouteArgs} {routes : List CompiledRoute} {env : Obj}
    (h : evaluateEvent rt (eventLabels env) (orderRoutes routes) =
      evaluateEvent rt (eventLabels env) args.ordered) (result : BatchRouting) :
    routeEvent rt { args with routes := routes } result env = routeEvent rt args result env := by
  have hdrop : ∀ result env labels decision,
      recordDrop rt { args with routes := routes } result env labels decision =
        recordDrop rt args result env labels decision := fun _ _ _ _ => rfl
  have hchosen : ∀ result env labels chosen,
      routeChosen rt { args with routes := routes } result env labels chosen =
        routeChosen rt args result env labels chosen := by
    intro result env labels chosen
    have hdeliver : ∀ entries result delivered,
        deliverChosen rt { args with routes := routes } env labels entries result delivered =
          deliverChosen rt args env labels entries result delivered := by
      intro entries
      induction entries with
      | nil => intro _ _; rfl
      | cons p entries ih =>
        obtain ⟨dest, route⟩ := p
        intro result delivered
        simp only [deliverChosen, ih]
        rfl
    simp only [routeChosen, hdeliver]
  have hordered : ({ args with routes := routes } : RouteArgs).ordered = orderRoutes routes := rfl
  simp only [routeEvent, hordered, h, hdrop, hchosen]
  rfl

theorem routeBatch_perm (rt : Runtime) {args : RouteArgs}
    (hids : (args.routes.map CompiledRoute.id).Nodup) {routes : List CompiledRoute}
    (hperm : args.routes.Perm routes) (batch : List Obj) :
    routeBatch rt { args with routes := routes } batch = routeBatch rt args batch := by
  have hevent : routeEvent rt { args with routes := routes } = routeEvent rt args := by
    funext result env
    exact routeEvent_congr rt (congrArg _ (orderRoutes_perm hperm hids).symm) result
  rw [routeBatch, routeBatch, hevent]

/-- What `route_batch` on a batch in the heap leaves behind: the cells that were there, and the
sub-batches of the result. -/
structure LeavesInput (rt : Runtime) (args : RouteArgs) (batch : List Obj) (held : HeldBatch batch) :
    Prop where
  kept : held.heap <+: (routeBatchAt rt args held.fuel held.refs held.heap).2
  input : BatchStored (routeBatchAt rt args held.fuel held.refs held.heap).2 batch held.refs
  output : ∀ dest, BatchStored (routeBatchAt rt args held.fuel held.refs held.heap).2
    ((routeBatch rt args batch).subBatches.bucket dest)
    ((routeBatchAt rt args held.fuel held.refs held.heap).1.bucket dest)

/-- Routing is a homomorphism of batches, does not depend on the order of the routes, and leaves
the envelopes it reads as they are. -/
theorem route_batch_homomorphism (rt : Runtime) (args : RouteArgs)
    (hids : (args.routes.map CompiledRoute.id).Nodup) :
    (∀ batch₁ batch₂, routeBatch rt args (batch₁ ++ batch₂) =
      (routeBatch rt args batch₁).merge (routeBatch rt args batch₂)) ∧
    (∀ routes, args.routes.Perm routes → ∀ batch,
      routeBatch rt { args with routes := routes } batch = routeBatch rt args batch) ∧
    ∀ batch (held : HeldBatch batch), LeavesInput rt args batch held := by
  refine ⟨routeBatch_append rt args, fun routes hperm => routeBatch_perm rt hids hperm, ?_⟩
  intro batch held
  obtain ⟨hkept, hout⟩ :=
    @routeBatchAt_stored rt args held.fuel held.heap held.deep _ _ held.stored held.fits
  exact ⟨hkept, held.stored.extend hkept, hout⟩

section Example

/-- Two routes of one priority, given in the order of their ids and against it. -/
def twoRoutes : RouteArgs where
  routes := [{ id := "a", priority := 1, condition := [], destinationIds := ["lake"],
               isFinal := false },
             { id := "b", priority := 1, condition := [], destinationIds := ["siem"],
               isFinal := true }]

def vendorOnlyEvent (vendor : String) : Obj := [("_centralops", .obj [("vendor", .str vendor)])]

/-- A batch in two parts, routed in the other order. -/
theorem twoRoutes_homomorphism :
    routeBatch .ascii { twoRoutes with routes := twoRoutes.routes.reverse }
        ([vendorOnlyEvent "sophos"] ++ [vendorOnlyEvent "wazuh"]) =
      (routeBatch .ascii twoRoutes [vendorOnlyEvent "sophos"]).merge
        (routeBatch .ascii twoRoutes [vendorOnlyEvent "wazuh"]) := by
  obtain ⟨happend, hperm, -⟩ := route_batch_homomorphism .ascii twoRoutes (by decide)
  rw [hperm _ (List.reverse_perm _).symm, happend]

end Example

end CentralOps
