import Mathlib.Algebra.BigOperators.Group.Finset.Basic
import CentralOps.Routing.Verdict

namespace CentralOps
set_option autoImplicit true

section Accounting
variable (rt : Runtime) (args : RouteArgs)

def fullySampledOut (env : Obj) : Bool :=
  !(survivingOf rt args env).isEmpty &&
    (survivingOf rt args env).entries.all (fun p => sampledOutOf rt args env p.2)

/-- How often an assigned destination of position `i` is accounted for: copies, sampled
records, residency records, and the anti-loop removal. -/
def fatesAt (batch : List Obj) (i : Nat) (env : Obj) (dest : String) : Nat :=
  (copiesAt rt args batch i dest).length +
    (sampledAt rt args batch i).countP (fun p => p.2.1 = dest) +
    (blockedAt rt args batch i).countP (fun p => p.2 = dest) +
    if loops args env dest then 1 else 0

def deliveredAt (batch : List Obj) (i : Nat) (env : Obj) : Finset String :=
  (decisionOf rt args env).destinations.filter (fun d => copiesAt rt args batch i d ≠ [])

/-- No event of the batch is lost or counted twice. -/
structure Accounted (batch : List Obj) : Prop where
  outcome : ∀ i env, batch[i]? = some env → ∃ o : Outcome,
    (o = .sampledOut ↔ fullySampledOut rt args env = true) ∧
    ∀ o', o' ≠ .sampledOut → (routeBatch rt args (batch.take (i + 1))).counter o' =
      (routeBatch rt args (batch.take i)).counter o' + if o = o' then 1 else 0
  length : batch.length = (routeBatch rt args batch).dropped +
    (routeBatch rt args batch).fallback + (routeBatch rt args batch).unrouted +
    (routeBatch rt args batch).loopBlocked + (routeBatch rt args batch).routed +
    batch.countP (fullySampledOut rt args)
  destination : ∀ i env, batch[i]? = some env → (decisionOf rt args env).dropped = false →
    ∀ d ∈ (decisionOf rt args env).destinations, fatesAt rt args batch i env d = 1
  entries : (routeBatch rt args batch).subBatches.total = (routeBatch rt args batch).fallback +
    (batch.zipIdx.map (fun p => (deliveredAt rt args batch p.2 p.1).card)).sum

/-- The fallback that takes the event is one of its assigned destinations. -/
def FallbackCollides (env : Obj) : Prop :=
  ∃ fb ∈ (decisionOf rt args env).destinations, TakesFallback rt args env fb

end Accounting

section Outcomes
variable (rt : Runtime) (args : RouteArgs) (env : Obj)

theorem sinkless_ne : sinkless args env ≠ .dropped ∧ sinkless args env ≠ .sampledOut ∧
    sinkless args env ≠ .routed := by
  unfold sinkless
  repeat' split
  all_goals decide

theorem dropped_isEmpty (h : (decisionOf rt args env).dropped = true) :
    survivingOf rt args env = .empty :=
  (survivingOf_empty_of_assignments rt args env (evaluateEvent_dropped h)).2

theorem outcomeOf_sampledOut_iff :
    outcomeOf rt args env = .sampledOut ↔ fullySampledOut rt args env = true := by
  unfold outcomeOf fullySampledOut
  by_cases hd : (decisionOf rt args env).dropped = true
  · simp [hd, dropped_isEmpty rt args env hd, Dict.isEmpty, Dict.empty]
  · by_cases hs : (survivingOf rt args env).isEmpty = true
    · simp [hd, hs, (sinkless_ne args env).2.1]
    · simp [hd, hs]

theorem counter_eq_countP (batch : List Obj) (o : Outcome) (ho : o ≠ .sampledOut) :
    (routeBatch rt args batch).counter o = batch.countP (fun e => outcomeOf rt args e = o) := by
  induction batch using List.reverseRecOn with
  | nil => cases o <;> rfl
  | append_singleton pre e ih =>
    have hc := (routeEvent_extends rt args e (routeBatch rt args pre)).counters o ho
    rw [routeBatch_append_one, hc, ih, List.countP_append, List.countP_singleton]
    simp only [decide_eq_true_eq]

theorem length_eq_outcomes (batch : List Obj) :
    batch.length = batch.countP (fun e => outcomeOf rt args e = .dropped) +
      batch.countP (fun e => outcomeOf rt args e = .fallback) +
      batch.countP (fun e => outcomeOf rt args e = .unrouted) +
      batch.countP (fun e => outcomeOf rt args e = .loopBlocked) +
      batch.countP (fun e => outcomeOf rt args e = .routed) +
      batch.countP (fun e => outcomeOf rt args e = .sampledOut) := by
  induction batch with
  | nil => rfl
  | cons e batch ih =>
    simp only [List.length_cons, List.countP_cons]
    cases outcomeOf rt args e <;> simp <;> omega

end Outcomes

section Fates
variable (rt : Runtime) (args : RouteArgs) (env : Obj)

theorem countP_sampledOf (chosen : Dict String CompiledRoute) (dest : String) :
    (sampledOf rt args env chosen.entries).countP (fun p => p.1 = dest) =
      if (chosen.get? dest).any (sampledOutOf rt args env) then 1 else 0 := by
  rw [← Dict.countP_key]
  simp only [sampledOf, List.countP_map, List.countP_filter]
  rfl

theorem countP_blockedOf (dest : String) :
    (blockedOf rt args env).countP (fun d => d = dest) =
      if (candidatesOf rt args env).get? dest ≠ none ∧
        conflicts rt args (eventLabels env) dest = true then 1 else 0 := by
  have hk := (candidatesOf rt args env).countP_key dest
    (fun _ => conflicts rt args (eventLabels env) dest)
  have hb : (blockedOf rt args env).countP (fun d => d = dest) =
      (candidatesOf rt args env).entries.countP
        (fun p => p.1 = dest && conflicts rt args (eventLabels env) dest) := by
    unfold blockedOf blockedBy
    rw [List.countP_filter, List.countP_map]
    apply List.countP_congr
    intro p _
    simp only [Function.comp_apply, Bool.and_eq_true, decide_eq_true_eq]
    constructor <;> rintro ⟨rfl, hc⟩ <;> exact ⟨rfl, hc⟩
  rw [hb, hk]
  cases (candidatesOf rt args env).get? dest <;> simp

theorem fatesAt_eq (h : batch[i]? = some env) (dest : String) :
    fatesAt rt args batch i env dest =
      (copyFor rt args env dest).toList.length +
        (if ((survivingOf rt args env).get? dest).any (sampledOutOf rt args env) then 1 else 0) +
        (if (candidatesOf rt args env).get? dest ≠ none ∧
          conflicts rt args (eventLabels env) dest = true then 1 else 0) +
        if loops args env dest then 1 else 0 := by
  unfold fatesAt
  rw [copiesAt_eq h, sampledAt_eq h, blockedAt_eq h, ← countP_sampledOf, ← countP_blockedOf,
    List.countP_map, List.countP_map]
  rfl

theorem fates_of_surviving (h : batch[i]? = some env)
    (hdest : dest ∈ (decisionOf rt args env).destinations)
    (hl : loops args env dest = false) (hc : conflicts rt args (eventLabels env) dest = false) :
    fatesAt rt args batch i env dest = 1 := by
  obtain ⟨w, hw⟩ := (winnerOf_isSome rt args env).1 hdest
  rw [fatesAt_eq rt args env h, copyFor_winner hw hl hc, (survivingOf_winner hw hl hc).1, hc, hl]
  cases hs : sampledOutOf rt args env w <;> simp [hs]

theorem fates_of_loops (h : batch[i]? = some env) (hl : loops args env dest = true) :
    fatesAt rt args batch i env dest = 1 := by
  have hcopy : copyFor rt args env dest = none := by
    cases hx : copyFor rt args env dest with
    | none => rfl
    | some x =>
      rcases copyFor_cases hx with ⟨hf, -⟩ | ⟨w, -, hnl, -⟩
      · exact absurd (hl.symm.trans hf.no_loop) Bool.true_eq_false.mp
      · exact absurd (hl.symm.trans hnl) Bool.true_eq_false.mp
  rw [fatesAt_eq rt args env h, hcopy, survivingOf_get?, candidatesOf_get?, hl]
  simp

/-- A destination the residency filter removes is recorded, and receives the event all the
same when it is the fallback of an event with no destination left. -/
theorem fates_of_conflicts (h : batch[i]? = some env)
    (hdest : dest ∈ (decisionOf rt args env).destinations)
    (hl : loops args env dest = false) (hc : conflicts rt args (eventLabels env) dest = true) :
    fatesAt rt args batch i env dest = 1 + (copyFor rt args env dest).toList.length := by
  obtain ⟨w, hw⟩ := (winnerOf_isSome rt args env).1 hdest
  rw [fatesAt_eq rt args env h, survivingOf_get?, candidatesOf_get?, hw, hc, hl]
  simp [Nat.add_comm]

theorem fates_of_not_collides (h : batch[i]? = some env) (hf : ¬ FallbackCollides rt args env)
    (hdest : dest ∈ (decisionOf rt args env).destinations) :
    fatesAt rt args batch i env dest = 1 := by
  cases hl : loops args env dest with
  | true => exact fates_of_loops rt args env h hl
  | false =>
    cases hc : conflicts rt args (eventLabels env) dest with
    | false => exact fates_of_surviving rt args env h hdest hl hc
    | true =>
      rw [fates_of_conflicts rt args env h hdest hl hc]
      cases hx : copyFor rt args env dest with
      | none => rfl
      | some x =>
        rcases copyFor_cases hx with ⟨ht, -⟩ | ⟨w, -, -, hnc, -⟩
        · exact absurd ⟨dest, hdest, ht⟩ hf
        · rw [hc] at hnc
          cases hnc

theorem fates_of_collides (h : batch[i]? = some env) (hf : FallbackCollides rt args env) :
    ∃ d ∈ (decisionOf rt args env).destinations, fatesAt rt args batch i env d = 2 := by
  obtain ⟨fb, hmem, ht⟩ := hf
  have hc : conflicts rt args (eventLabels env) fb = true := by
    rcases ht.removed fb hmem with hl | hc
    · rw [ht.no_loop] at hl
      cases hl
    · exact hc
  refine ⟨fb, hmem, ?_⟩
  rw [fates_of_conflicts rt args env h hmem ht.no_loop hc, copyFor_fallback ht]
  rfl

end Fates

section Entries
variable (rt : Runtime) (args : RouteArgs) (env : Obj)

theorem mem_sends_iff (dest : String) :
    dest ∈ (sendsOf rt args env).map Prod.fst ↔ copyFor rt args env dest ≠ none := by
  have hv := values_sendsOf rt args env dest
  rw [← not_iff_not, ← Assoc.values_eq_nil_iff, hv]
  cases copyFor rt args env dest <;> simp

theorem nodup_sends : ((sendsOf rt args env).map Prod.fst).Nodup := by
  unfold sendsOf
  split
  · exact List.nodup_nil
  · split
    · unfold sinkSends
      split
      · cases args.fallbackDestinationId <;> simp
      · exact List.nodup_nil
    · have hsub : (((survivingOf rt args env).entries.filter
          (fun p => !sampledOutOf rt args env p.2)).map Prod.fst).Nodup :=
        (List.filter_sublist.map _).nodup (survivingOf rt args env).nodup
      simpa only [copiesOf, List.map_map, Function.comp_def] using hsub

theorem deliveredAt_eq (h : batch[i]? = some env) :
    deliveredAt rt args batch i env =
      ((sendsOf rt args env).map Prod.fst).toFinset ∩ (decisionOf rt args env).destinations := by
  ext d
  have hc := @copiesAt_eq rt args _ _ _ h d
  have hm := mem_sends_iff rt args env d
  rw [Finset.mem_inter, List.mem_toFinset, hm, deliveredAt, Finset.mem_filter, hc, and_comm]
  cases copyFor rt args env d <;> simp

theorem takesFallback_of_outcome (h : outcomeOf rt args env = .fallback) :
    ∃ fb, TakesFallback rt args env fb ∧ sendsOf rt args env = [(fb, env)] := by
  unfold outcomeOf at h
  split at h
  · cases h
  next hd =>
  split at h
  · next he =>
    obtain ⟨fb, hfb, hl⟩ := (sinkless_fallback_iff args env).1 h
    refine ⟨fb, ⟨Bool.eq_false_iff.2 hd, hfb, hl, ?_⟩, ?_⟩
    · exact (survivingOf_isEmpty_iff rt args env).1 he
    · rw [sendsOf, if_neg hd, if_pos he, sinkSends, if_pos h, hfb]
      rfl
  · split at h <;> cases h

/-- Outside the collision an entry is either the fallback's or one of an assigned
destination. -/
theorem length_sends (h : batch[i]? = some env) (hf : ¬ FallbackCollides rt args env) :
    (sendsOf rt args env).length =
      (if outcomeOf rt args env = .fallback then 1 else 0) +
        (deliveredAt rt args batch i env).card := by
  rw [deliveredAt_eq rt args env h]
  by_cases ho : outcomeOf rt args env = .fallback
  · obtain ⟨fb, ht, hsends⟩ := takesFallback_of_outcome rt args env ho
    have hfbn : fb ∉ (decisionOf rt args env).destinations := fun hm => hf ⟨fb, hm, ht⟩
    simp [hsends, ho, hfbn]
  · have hsub : ((sendsOf rt args env).map Prod.fst).toFinset ⊆
        (decisionOf rt args env).destinations := by
      intro d hd
      rw [List.mem_toFinset, mem_sends_iff] at hd
      obtain ⟨x, hx⟩ := Option.ne_none_iff_exists'.1 hd
      rcases copyFor_cases hx with ⟨ht, -⟩ | ⟨w, hw, -⟩
      · exact absurd ht.outcome ho
      · exact (winnerOf_isSome rt args env).2 ⟨w, hw⟩
    rw [Finset.inter_eq_left.2 hsub, List.toFinset_card_of_nodup (nodup_sends rt args env),
      List.length_map, if_neg ho, Nat.zero_add]

theorem total_routeBatch (batch : List Obj) :
    (routeBatch rt args batch).subBatches.total =
      (batch.map (fun e => (sendsOf rt args e).length)).sum := by
  induction batch using List.reverseRecOn with
  | nil => rfl
  | append_singleton pre e ih =>
    have hs := (routeEvent_extends rt args e (routeBatch rt args pre)).sends
    rw [routeBatch_append_one, hs, Dict.total_pushAll, ih]
    simp

theorem sum_indicator (batch : List Obj) (o : Outcome) :
    (batch.map (fun e => if outcomeOf rt args e = o then 1 else 0)).sum =
      batch.countP (fun e => outcomeOf rt args e = o) := by
  induction batch with
  | nil => rfl
  | cons e batch ih => by_cases ho : outcomeOf rt args e = o <;> simp [ho, ih, Nat.add_comm]

theorem total_of_not_collides (batch : List Obj)
    (hf : ∀ e ∈ batch, ¬ FallbackCollides rt args e) :
    (routeBatch rt args batch).subBatches.total = (routeBatch rt args batch).fallback +
      (batch.zipIdx.map (fun p => (deliveredAt rt args batch p.2 p.1).card)).sum := by
  have hfall : (routeBatch rt args batch).fallback =
      batch.countP (fun e => outcomeOf rt args e = .fallback) :=
    counter_eq_countP rt args batch .fallback (by decide)
  have hsplit : batch.zipIdx.map (fun p => (sendsOf rt args p.1).length) =
      batch.zipIdx.map (fun p => (if outcomeOf rt args p.1 = .fallback then 1 else 0) +
        (deliveredAt rt args batch p.2 p.1).card) := by
    apply List.map_congr_left
    rintro ⟨e, i⟩ hp
    have hi : batch[i]? = some e := List.mk_mem_zipIdx_iff_getElem?.1 hp
    exact length_sends rt args e hi (hf e (List.mem_of_getElem? hi))
  have hfst : ∀ g : Obj → Nat, batch.zipIdx.map (fun p => g p.1) = batch.map g := by
    intro g
    have hg : batch.zipIdx.map (g ∘ Prod.fst) = batch.map g := by
      rw [← List.map_map, List.zipIdx_map_fst]
    exact hg
  rw [total_routeBatch, ← hfst, hsplit, List.sum_map_add, hfall, ← sum_indicator,
    hfst (fun e => if outcomeOf rt args e = .fallback then 1 else 0)]

end Entries

theorem accounted_iff_no_fallback_collision (rt : Runtime) (args : RouteArgs)
    (batch : List Obj) :
    Accounted rt args batch ↔ ∀ env ∈ batch, ¬ FallbackCollides rt args env := by
  constructor
  · intro h env henv hf
    obtain ⟨i, hi⟩ := List.mem_iff_getElem?.1 henv
    obtain ⟨d, hd, htwo⟩ := fates_of_collides rt args env hi hf
    have hone := h.destination i env hi (not_dropped_of_mem hd) d hd
    rw [htwo] at hone
    cases hone
  · intro hf
    refine ⟨?_, ?_, ?_, total_of_not_collides rt args batch hf⟩
    · intro i env hi
      exact ⟨outcomeOf rt args env, outcomeOf_sampledOut_iff rt args env,
        (position_extends hi).counters⟩
    · have hlen := length_eq_outcomes rt args batch
      simp only [← counter_eq_countP rt args batch _ (by decide : Outcome.dropped ≠ .sampledOut),
        ← counter_eq_countP rt args batch _ (by decide : Outcome.fallback ≠ .sampledOut),
        ← counter_eq_countP rt args batch _ (by decide : Outcome.unrouted ≠ .sampledOut),
        ← counter_eq_countP rt args batch _ (by decide : Outcome.loopBlocked ≠ .sampledOut),
        ← counter_eq_countP rt args batch _ (by decide : Outcome.routed ≠ .sampledOut),
        outcomeOf_sampledOut_iff, Bool.decide_eq_true] at hlen
      exact hlen
    · intro i env hi _ d hd
      exact fates_of_not_collides rt args env hi
        (hf env (List.mem_of_getElem? hi)) hd

/-- One European destination that is also the fallback, and an event from the US. -/
def euOnly : RouteArgs where
  routes := [{ id := "r", priority := 1, condition := [], destinationIds := ["eu"],
               isFinal := true }]
  fallbackDestinationId := some "eu"
  destinationResidency := some (Dict.empty.set "eu" (some "EU"))

def usEvent : Obj :=
  [("_centralops", .obj [("event_id", .str "e1"), ("data_geography", .str "US")]),
   ("raw", .obj [("user", .str "ana")])]

theorem euOnly_not_accounted : ¬ Accounted Runtime.ascii euOnly [usEvent] := by
  intro h
  have hone := h.destination 0 usEvent rfl (by decide) "eu" (by decide)
  exact absurd hone (by decide)

end CentralOps
