import CentralOps.Senders.Contract
import CentralOps.Delivery.CeleryLane

namespace CentralOps
set_option autoImplicit true

section Senders
variable (rt : Runtime) (out : Outside) (batch : List Obj)

def SenderKind.report : SenderKind → Except PyError SendReport
  | .clickhouse => clickhouseSendBatch rt out.loads out.wire out.server batch
  | .elasticBulk => elasticSendBatch rt out.wire out.server batch
  | .otlp => otlpSendBatch rt out.wire out.server batch
  | .splunkHec => splunkSendBatch rt out.wire out.server batch
  | .logscale => logscaleSendBatch out.wire out.server batch
  | .kafka => (kafkaSendBatch rt out.wire out.producer out.broker batch).map .perEvent

/-- The positions of the batch that the rejected list of a sender is about. -/
def SenderKind.rejectedAt (kind : SenderKind) : List Nat :=
  match kind.report rt out batch with
  | .ok (.perEvent outcomes) =>
    if outcomes.contains .retryable && decide (kind ≠ .kafka) then []
    else rejectedPositions 0 outcomes
  | _ => []

end Senders

section Statement
variable (rt : Runtime)

/-- The map from event ids leads from the envelope's id back to the envelope. -/
def Recorded (chunk : List Obj) (e : Obj) : Prop :=
  ((buildEventMap rt chunk).get? (senderEventId rt e)).getD [] = e

def RejectedRow (destId : String) (chunk : List Obj) (rejected : List RejectedEvent)
    (row : DeadLetter) : Prop :=
  row.destinationId = destId →
    row.payload = .stored (((buildEventMap rt chunk).get? row.eventId).getD []) ∧
      ∃ rej ∈ rejected, rej.eventId = row.eventId

end Statement

section Rows
variable {rt : Runtime} {env : Environment} {destId : String} {destOrg : Option Int}
  {chunk : List Obj}

theorem storeRejected_rows (rejected : List RejectedEvent)
    (hfree : AllRows (fun row => row.destinationId ≠ destId) dlq) :
    AllRows (RejectedRow rt destId chunk rejected)
      (storeRejected rt env destId destOrg rejected chunk dlq) := by
  have hstart : AllRows (RejectedRow rt destId chunk rejected) dlq :=
    fun i row hget hdest => absurd hdest (hfree i row hget)
  unfold storeRejected
  rw [List.foldl_map]
  apply hstart.foldl
  · intro row row' hsame h hdest
    rw [hsame.destinationId] at hdest
    rw [hsame.payload, hsame.eventId]
    exact h hdest
  · exact fun dlq rej hrej => ⟨_, fun _ => ⟨rfl, rej, hrej, rfl⟩, rfl⟩

theorem envelopeEventId_nil : envelopeEventId rt [] = none := rfl

/-- An envelope that has a row of its own is found by its id. -/
theorem recorded_of_row {rejected : List RejectedEvent} {row : DeadLetter}
    (hrej : ∀ rej ∈ rejected, ∃ e ∈ chunk, rej.eventId = senderEventId rt e)
    (hrow : RejectedRow rt destId chunk rejected row) (hdest : row.destinationId = destId)
    (hpay : row.payload = .stored e) : Recorded rt chunk e := by
  obtain ⟨hstored, rej, hmem, hid⟩ := hrow hdest
  have heq : ((buildEventMap rt chunk).get? row.eventId).getD [] = e := by
    rw [hpay] at hstored
    cases hstored
    rfl
  cases hget : (buildEventMap rt chunk).get? row.eventId with
  | some x =>
    obtain rfl : x = e := by simpa [hget] using heq
    have hx := hget
    rw [get?_buildEventMap] at hx
    have hxid := (List.mem_filter.1 (List.mem_of_getLast? hx)).2
    have hsender : senderEventId rt x = row.eventId := by
      rw [senderEventId, of_decide_eq_true hxid]
      rfl
    unfold Recorded
    rw [hsender, hget]
    rfl
  | none =>
    obtain rfl : [] = e := by simpa [hget] using heq
    obtain ⟨e', he', hid'⟩ := hrej rej hmem
    cases heid : envelopeEventId rt e' with
    | some id =>
      have hnone := hget
      rw [← hid, hid', senderEventId, heid, get?_buildEventMap, List.getLast?_eq_none_iff,
        List.filter_eq_nil_iff] at hnone
      exact absurd (by simpa using heid) (hnone e' he')
    | none =>
      have hmark : senderEventId rt [] = row.eventId := by
        rw [← hid, hid']
        unfold senderEventId
        rw [heid, envelopeEventId_nil]
      unfold Recorded
      rw [hmark, hget]
      rfl

theorem parked_of_recorded {rejected : List RejectedEvent} (hmem : rej ∈ rejected)
    (hid : rej.eventId = senderEventId rt e) (hrec : Recorded rt chunk e)
    (hfree : AllRows (fun row => row.destinationId ≠ destId) dlq) :
    Parked destId (storeRejected rt env destId destOrg rejected chunk dlq) e := by
  obtain ⟨i, row, hget, hdest, hrow⟩ :=
    storeRejected_present rt env destId destOrg chunk hmem dlq
  have hpay := (storeRejected_rows rejected hfree i row hget hdest).1
  refine ⟨i, row, hget, hdest, ?_⟩
  rw [hpay, hrow, hid]
  exact congrArg JsonText.stored hrec

end Rows

section Rejections
variable {rt : Runtime} {out : Outside} {batch : List Obj}

theorem rejections_replicate (batch : List Obj) (n : Nat) :
    rejections rt batch (List.replicate n .retryable) = [] := by
  induction n generalizing batch with
  | zero => cases batch <;> rfl
  | succ n ih =>
    cases batch with
    | nil => rfl
    | cons e batch => exact ih batch

theorem rejectedPositions_replicate (k n : Nat) :
    rejectedPositions k (List.replicate n .retryable) = [] := by
  induction n generalizing k with
  | zero => rfl
  | succ n ih => exact ih (k + 1)

theorem orRejected_length {send : Except PyError SendReport} {outcomes : List EventOutcome}
    (hsend : ∀ os, send = .ok (.perEvent os) → n = os.length)
    (h : orRejected n send = .ok (.perEvent outcomes)) : n = outcomes.length := by
  cases send with
  | ok rep =>
    cases h
    exact hsend outcomes rfl
  | error e =>
    by_cases he : e = .typeError ∨ e = .valueError
    · rcases he with rfl | rfl
      · cases h
        simp
      · cases h
        simp
    · rw [orRejected_other n he] at h
      cases h

theorem clickhouseReport_length {loads : String → Except PyError Json} {reply : HttpReply}
    (h : clickhouseReport rt loads n reply = .ok (.perEvent outcomes)) : n = outcomes.length := by
  cases reply with
  | connectionError detail =>
    cases h
    simp
  | response r =>
    unfold clickhouseReport at h
    dsimp only at h
    split at h
    · cases h
      simp
    · split at h
      · unfold resultadoDeSucesso at h
        dsimp only at h
        split at h
        · cases h
        · split at h
          · cases h
          · cases h
          · cases h
          · cases h
          · split at h
            · cases h
            · split at h
              · cases h
                simp
              · cases h
      · cases h
        simp

theorem report_length {kind : SenderKind}
    (h : kind.report rt out batch = .ok (.perEvent outcomes)) :
    batch.length = outcomes.length := by
  by_cases hne : batch = []
  · subst hne
    cases kind <;> cases h <;> rfl
  · have hne' : ¬ batch.isEmpty = true := by simpa using hne
    cases kind with
    | clickhouse =>
      change clickhouseSendBatch rt out.loads out.wire out.server batch = _ at h
      unfold clickhouseSendBatch at h
      rw [if_neg hne'] at h
      apply orRejected_length _ h
      intro os hos
      split at hos
      · cases hos
      · exact clickhouseReport_length hos
    | elasticBulk =>
      unfold SenderKind.report at h
      cases hwire : batch.findSome? out.wire with
      | some e =>
        unfold elasticSendBatch at h
        rw [if_neg hne', hwire] at h
        cases h
      | none => exact elasticOutcomes_length ((elasticSendBatch_ok hwire hne).1 h)
    | otlp =>
      change otlpSendBatch rt out.wire out.server batch = _ at h
      unfold otlpSendBatch at h
      rw [if_neg hne'] at h
      split at h
      · cases h
      · cases h
        exact (otlpOutcomes_length _ _).symm
    | splunkHec =>
      change splunkSendBatch rt out.wire out.server batch = _ at h
      unfold splunkSendBatch at h
      rw [if_neg hne'] at h
      split at h
      · cases h
      · cases h
        exact (splunkOutcomes_length _ _).symm
    | logscale =>
      change logscaleSendBatch out.wire out.server batch = _ at h
      unfold logscaleSendBatch at h
      rw [if_neg hne'] at h
      apply orRejected_length _ h
      intro os hos
      split at hos
      · cases hos
      · cases hos
        exact (logscaleOutcomes_length _ _).symm
    | kafka =>
      change (kafkaSendBatch rt out.wire out.producer out.broker batch).map _ = _ at h
      unfold kafkaSendBatch at h
      rw [if_neg hne'] at h
      split at h
      · cases h
        simp
      · split at h
        · cases h
        · cases h
          simp

theorem map_ok {f : α → β} {x : Except ε α} (h : x.map f = .ok b) :
    ∃ a, x = .ok a ∧ f a = b := by
  cases x with
  | error e => cases h
  | ok a =>
    cases h
    exact ⟨a, rfl, rfl⟩

theorem result_rejected (h : batch.length = outcomes.length) :
    (SendReport.result rt batch (.perEvent outcomes)).rejected =
      if outcomes.contains .retryable then [] else rejections rt batch outcomes := by
  change (tally rt batch outcomes).result.rejected = _
  rw [tally_eq batch outcomes h]
  unfold Tally.result
  cases outcomes.contains .retryable with
  | true => rfl
  | false => rfl

theorem rejected_outcomes {kind : SenderKind} (h : kind.sendBatch rt out batch = .ok r) :
    ∃ outcomes, batch.length = outcomes.length ∧ r.rejected = rejections rt batch outcomes ∧
      kind.rejectedAt rt out batch = rejectedPositions 0 outcomes := by
  have hnone : batch.length = (List.replicate batch.length EventOutcome.retryable).length := by
    simp
  by_cases hkafka : kind = .kafka
  · subst hkafka
    obtain ⟨outcomes, hout, rfl⟩ := map_ok h
    have hrep : SenderKind.kafka.report rt out batch = .ok (.perEvent outcomes) := by
      unfold SenderKind.report
      rw [hout]
      rfl
    have hlen := report_length hrep
    refine ⟨outcomes, hlen, ?_, ?_⟩
    · rw [tally_eq batch outcomes hlen]
      rfl
    · unfold SenderKind.rejectedAt
      rw [hrep]
      simp
  · have hmap : (kind.report rt out batch).map (SendReport.result rt batch) = .ok r := by
      cases kind with
      | kafka => exact absurd rfl hkafka
      | clickhouse => exact h
      | elasticBulk => exact h
      | otlp => exact h
      | splunkHec => exact h
      | logscale => exact h
    obtain ⟨rep, hrep, rfl⟩ := map_ok hmap
    cases rep with
    | wrote rows =>
      refine ⟨_, hnone, (rejections_replicate batch _).symm, ?_⟩
      unfold SenderKind.rejectedAt
      rw [hrep, rejectedPositions_replicate]
    | perEvent outcomes =>
      have hlen := report_length hrep
      rw [result_rejected hlen]
      cases hretry : outcomes.contains .retryable with
      | true =>
        refine ⟨_, hnone, (rejections_replicate batch _).symm, ?_⟩
        unfold SenderKind.rejectedAt
        rw [hrep, rejectedPositions_replicate]
        simp only [hretry, hkafka, ne_eq, not_false_eq_true, decide_true, Bool.and_self, if_true]
      | false =>
        refine ⟨outcomes, hlen, rfl, ?_⟩
        unfold SenderKind.rejectedAt
        rw [hrep]
        simp only [hretry, Bool.false_and, Bool.false_eq_true, if_false]

end Rejections

section Recovery
variable {rt : Runtime} {env : Environment} {destId : String} {destOrg : Option Int}

theorem persistRejectedToDlq_true {rejected : List RejectedEvent} {chunk : List Obj}
    {s s' : DeliveryState}
    (h : persistRejectedToDlq rt env destId destOrg rejected chunk s = .ok true s') :
    rejected = [] ∨ s'.dlq = storeRejected rt env destId destOrg rejected chunk s.dlq := by
  unfold persistRejectedToDlq at h
  split at h
  · next hempty => exact .inl (List.isEmpty_iff.1 hempty)
  · right
    have hspec : Proc.Spec (fun t => t.dlq = s.dlq)
        (tryWrite env (fun s =>
          { s with dlq := storeRejected rt env destId destOrg rejected chunk s.dlq }))
        (fun written t => written = true →
          t.dlq = storeRejected rt env destId destOrg rejected chunk s.dlq)
        (fun t => t.dlq = s.dlq) :=
      tryWrite_spec (fun _ _ hs => hs) (fun t ht _ => by rw [ht]) (fun _ _ hw => by cases hw)
    have hrun := hspec s rfl
    rw [h] at hrun
    exact hrun rfl

theorem mem_rejections (rt : Runtime) (chunk : List Obj) (outcomes : List EventOutcome)
    (h : chunk.length = outcomes.length) (hp : p ∈ rejectedPositions 0 outcomes)
    (he : chunk[p]? = some e) :
    ∃ rej ∈ rejections rt chunk outcomes, rej.eventId = senderEventId rt e := by
  have hall : List.Forall₂ _ (rejections rt chunk outcomes) (rejectedPositions 0 outcomes) :=
    rejections_at [] chunk outcomes h
  obtain ⟨i, hi⟩ := List.mem_iff_getElem?.1 hp
  obtain ⟨rej, hrej, ev, hev, hid⟩ := forall₂_getElem? hall hi
  have heq : some ev = some e := hev.symm.trans he
  cases heq
  exact ⟨rej, List.mem_of_getElem? hrej, hid⟩

theorem rejections_named (chunk : List Obj) (outcomes : List EventOutcome)
    (h : chunk.length = outcomes.length) :
    ∀ rej ∈ rejections rt chunk outcomes, ∃ e ∈ chunk, rej.eventId = senderEventId rt e := by
  have hall : List.Forall₂ _ (rejections rt chunk outcomes) (rejectedPositions 0 outcomes) :=
    rejections_at [] chunk outcomes h
  intro rej hrej
  obtain ⟨i, hi⟩ := List.mem_iff_getElem?.1 hrej
  obtain ⟨p, hp, ev, hev, hid⟩ := forall₂_getElem? hall.flip hi
  exact ⟨ev, List.mem_of_getElem? hev, hid⟩

end Recovery

/-- The rejected events of a sender can all be recovered exactly when each is the envelope that
the map from event ids gives for it. -/
theorem rejected_recoverable_iff (rt : Runtime) (env : Environment) (kind : SenderKind)
    (out : Outside) (destId : String) (destOrg : Option Int) (chunk : List Obj)
    (r : DeliveryResult) (s s' : DeliveryState)
    (hsend : kind.sendBatch rt out chunk = .ok r)
    (hfree : AllRows (fun row => row.destinationId ≠ destId) s.dlq)
    (hpersist : persistRejectedToDlq rt env destId destOrg r.rejected chunk s = .ok true s') :
    (∀ p ∈ kind.rejectedAt rt out chunk, ∀ e, chunk[p]? = some e → Parked destId s'.dlq e) ↔
      ∀ p ∈ kind.rejectedAt rt out chunk, ∀ e, chunk[p]? = some e → Recorded rt chunk e := by
  obtain ⟨outcomes, hlen, hrej, hat⟩ := rejected_outcomes hsend
  rw [hat]
  have hstored : ∀ p ∈ rejectedPositions 0 outcomes, ∀ e, chunk[p]? = some e →
      s'.dlq = storeRejected rt env destId destOrg (rejections rt chunk outcomes) chunk s.dlq := by
    intro p hp e he
    obtain ⟨rej, hmem, -⟩ := mem_rejections rt chunk outcomes hlen hp he
    rw [← hrej] at hmem ⊢
    exact (persistRejectedToDlq_true hpersist).resolve_left (List.ne_nil_of_mem hmem)
  constructor
  · intro h p hp e he
    obtain ⟨i, row, hget, hdest, hpay⟩ := h p hp e he
    rw [hstored p hp e he] at hget
    exact recorded_of_row (rejections_named chunk outcomes hlen)
      (storeRejected_rows _ hfree i row hget) hdest hpay
  · intro h p hp e he
    obtain ⟨rej, hmem, hid⟩ := mem_rejections rt chunk outcomes hlen hp he
    rw [hstored p hp e he]
    exact parked_of_recorded hmem hid (h p hp e he) hfree

/-- A ClickHouse server that refuses the batch. -/
def refusing : Outside where
  server _ := .response { status := 400 }

def refusedEvent (e : Obj) : RejectedEvent :=
  { eventId := senderEventId .ascii e, errorKind := "schema_rejected", reason := "HTTP 400" }

theorem refusing_sendBatch (e : Obj) :
    SenderKind.clickhouse.sendBatch .ascii refusing [e] =
      .ok { accepted := 0, rejected := [refusedEvent e] } :=
  rfl

/-- The state after the refused event is stored. -/
def refusedState (e : Obj) : DeliveryState where
  dlq := storeRejected .ascii (.calm none) "siem" none [refusedEvent e] [e] .empty
  clock := 1

theorem refused_persists (e : Obj) :
    persistRejectedToDlq .ascii (.calm none) "siem" none [refusedEvent e] [e] {} =
      .ok true (refusedState e) :=
  rfl

theorem empty_free (destId : String) :
    AllRows (fun row => row.destinationId ≠ destId) (.empty : Dict String DeadLetter) := by
  intro i row hget
  cases hget

theorem refusing_rejectedAt (e : Obj) :
    SenderKind.clickhouse.rejectedAt .ascii refusing [e] = [0] :=
  rfl

theorem rejected_recoverable_with_id :
    0 ∈ SenderKind.clickhouse.rejectedAt .ascii refusing [storedEvent "a"] ∧
      Parked "siem" (refusedState (storedEvent "a")).dlq (storedEvent "a") := by
  have hrejected : 0 ∈ SenderKind.clickhouse.rejectedAt .ascii refusing [storedEvent "a"] := by
    simp [refusing_rejectedAt]
  have hall := (rejected_recoverable_iff .ascii (.calm none) .clickhouse refusing "siem" none
    [storedEvent "a"] _ {} (refusedState (storedEvent "a")) (refusing_sendBatch _)
    (empty_free "siem") (refused_persists _)).2 (by
      intro p hp e he
      rw [refusing_rejectedAt, List.mem_singleton] at hp
      subst hp
      cases he
      unfold Recorded
      decide +kernel)
  exact ⟨hrejected, hall 0 hrejected _ rfl⟩

/-- An event without an id is rejected, its row is written, and its content is lost. -/
theorem rejected_without_id_is_lost :
    SenderKind.clickhouse.sendBatch .ascii refusing [[("raw", .int 1)]] =
      .ok { accepted := 0, rejected := [refusedEvent [("raw", .int 1)]] } ∧
    persistRejectedToDlq .ascii (.calm none) "siem" none [refusedEvent [("raw", .int 1)]]
      [[("raw", .int 1)]] {} = .ok true (refusedState [("raw", .int 1)]) ∧
    0 ∈ SenderKind.clickhouse.rejectedAt .ascii refusing [[("raw", .int 1)]] ∧
    ¬ Parked "siem" (refusedState [("raw", .int 1)]).dlq [("raw", .int 1)] := by
  refine ⟨refusing_sendBatch _, refused_persists _, by simp [refusing_rejectedAt], ?_⟩
  rintro ⟨i, row, hget, hdest, hpay⟩
  have hrec : Recorded .ascii [[("raw", .int 1)]] [("raw", .int 1)] :=
    recorded_of_row (by simp [refusedEvent])
      (storeRejected_rows [refusedEvent [("raw", .int 1)]] (empty_free "siem") i row hget)
      hdest hpay
  unfold Recorded at hrec
  exact absurd hrec (by decide +kernel)

end CentralOps
