import CentralOps.Senders.Contract

namespace CentralOps
set_option autoImplicit true

/-- The replies of a server that answers each request by its records: first to the batch, then to
each of its events. -/
def repliesTo (answer : List Obj → HttpReply) (batch : List Obj) : Nat → HttpReply
  | 0 => answer batch
  | i + 1 => answer batch[i]?.toList

def badRecords (good : Obj → Bool) (records : List Obj) : Nat := records.countP (fun ev => !good ev)

/-- A server that takes the good records of a request and says how many the others are. -/
def partialAnswer (good : Obj → Bool) (errorMessage : Json) (records : List Obj) : HttpReply :=
  if badRecords good records = 0 then .response { status := 200 }
  else .response {
    status := 200
    json := some (.obj [("partialSuccess",
      .obj [("rejectedLogRecords", .int (badRecords good records)),
        ("errorMessage", errorMessage)])]) }

/-- The good events are accepted, and just the others are rejected. -/
structure IsolatesPoison (rt : Runtime) (good : Obj → Bool) (batch : List Obj)
    (r : DeliveryResult) : Prop where
  accepted : r.accepted = batch.countP good
  rejected : r.rejected.map RejectedEvent.eventId =
    (batch.filter (fun ev => !good ev)).map (senderEventId rt)
  final : r.retryable = false

section Isolation
variable {rt : Runtime} {good : Obj → Bool} {errorMessage : Json} {batch : List Obj}

theorem partialAnswer_status (good : Obj → Bool) (errorMessage : Json) (records : List Obj) :
    ∃ r, partialAnswer good errorMessage records = .response r ∧ r.status = 200 := by
  unfold partialAnswer
  split
  · exact ⟨_, rfl, rfl⟩
  · exact ⟨_, rfl, rfl⟩

theorem otlpSendSingle_ok {r : HttpResponse} (h : r.status = 200) :
    otlpSendSingle rt (.response r) = .accepted := by
  simp [otlpSendSingle, otlpRetryable, HttpResponse.unauthorized, otlpSucceeded, h]

theorem single_accepted (records : List Obj) :
    otlpSendSingle rt (partialAnswer good errorMessage records) = .accepted := by
  obtain ⟨r, hr, hstatus⟩ := partialAnswer_status good errorMessage records
  rw [hr]
  exact otlpSendSingle_ok hstatus

theorem fallback_accepted (hlen : batch.length ≤ maxIndividualFallback) (reason errorKind : String) :
    fallbackIndividual (otlpSendSingle rt) (repliesTo (partialAnswer good errorMessage) batch)
      batch.length reason errorKind = List.replicate batch.length .accepted := by
  rw [fallbackIndividual, if_neg (Nat.not_lt.2 hlen), List.eq_replicate_iff]
  constructor
  · rw [List.length_map, List.length_range]
  · intro oc hoc
    obtain ⟨i, -, rfl⟩ := List.mem_map.1 hoc
    exact single_accepted _

theorem otlpOutcomes_partial (good : Obj → Bool) (errorMessage : Json)
    (hlen : batch.length ≤ maxIndividualFallback) :
    otlpOutcomes rt (repliesTo (partialAnswer good errorMessage) batch) batch.length =
      List.replicate batch.length .accepted := by
  obtain ⟨r, hr, hstatus⟩ := partialAnswer_status good errorMessage batch
  have hretry : otlpRetryable r = false := by simp [otlpRetryable, hstatus]
  have hauth : r.unauthorized = false := by simp [HttpResponse.unauthorized, hstatus]
  have hok : otlpSucceeded r = true := by simp [otlpSucceeded, hstatus]
  have hreply : repliesTo (partialAnswer good errorMessage) batch 0 = .response r := hr
  simp only [otlpOutcomes, hreply, hretry, hauth, hok, Bool.false_eq_true, if_false, if_true]
  cases partialSuccess rt r with
  | none => rfl
  | some message => exact fallback_accepted hlen message "schema_rejected"

theorem result_replicate_accepted (rt : Runtime) (batch : List Obj) :
    SendReport.result rt batch (.perEvent (List.replicate batch.length .accepted)) =
      { accepted := batch.length } := by
  have hrejections : ∀ batch : List Obj,
      rejections rt batch (List.replicate batch.length .accepted) = [] := by
    intro batch
    induction batch with
    | nil => rfl
    | cons ev batch ih => exact ih
  have hretry : (List.replicate batch.length EventOutcome.accepted).contains .retryable = false := by
    simp
  rw [SendReport.result, tally_eq batch _ List.length_replicate.symm, hrejections, hretry,
    List.count_replicate_self]
  rfl

theorem otlp_send_partly (wire : Obj → Option PyError)
    (hlen : batch.length ≤ maxIndividualFallback) (hwire : batch.findSome? wire = none) :
    (otlpSendBatch rt wire (repliesTo (partialAnswer good errorMessage) batch) batch).map
      (SendReport.result rt batch) = .ok { accepted := batch.length } := by
  unfold otlpSendBatch
  cases batch with
  | nil => rfl
  | cons ev batch =>
    have hsent := result_replicate_accepted rt (ev :: batch)
    rw [← otlpOutcomes_partial good errorMessage hlen] at hsent
    rw [hwire]
    exact congrArg Except.ok hsent

theorem isolates_whole_iff :
    IsolatesPoison rt good batch { accepted := batch.length } ↔ ∀ ev ∈ batch, good ev = true := by
  constructor
  · intro h
    exact List.countP_eq_length.1 h.accepted.symm
  · intro hgood
    have hnone : batch.filter (fun ev => !good ev) = [] := by
      rw [List.filter_eq_nil_iff]
      intro ev hev
      rw [hgood ev hev]
      exact Bool.false_ne_true
    exact ⟨(List.countP_eq_length.2 hgood).symm, by rw [hnone]; rfl, rfl⟩

end Isolation

/-- A batch with few events comes out as the server took it only when it took all of it. -/
theorem otlp_isolates_iff (rt : Runtime) (wire : Obj → Option PyError) (good : Obj → Bool)
    (errorMessage : Json) (batch : List Obj) (hlen : batch.length ≤ maxIndividualFallback) :
    (∃ r, SenderKind.otlp.sendBatch rt
          { wire := wire, server := repliesTo (partialAnswer good errorMessage) batch } batch =
            .ok r ∧ IsolatesPoison rt good batch r) ↔
      batch.findSome? wire = none ∧ ∀ ev ∈ batch, good ev = true := by
  have hsend : ∀ out : Outside, SenderKind.otlp.sendBatch rt out batch =
      (otlpSendBatch rt out.wire out.server batch).map (SendReport.result rt batch) :=
    fun _ => rfl
  rw [hsend]
  cases hwire : batch.findSome? wire with
  | none =>
    rw [otlp_send_partly wire hlen hwire]
    constructor
    · rintro ⟨r, hr, hisolates⟩
      rw [← Except.ok.inj hr] at hisolates
      exact ⟨rfl, isolates_whole_iff.1 hisolates⟩
    · rintro ⟨-, hgood⟩
      exact ⟨_, rfl, isolates_whole_iff.2 hgood⟩
  | some e =>
    have hne : batch.isEmpty = false := by
      cases batch with
      | nil => cases hwire
      | cons ev batch => rfl
    constructor
    · rintro ⟨r, hr, -⟩
      rw [otlpSendBatch, hne, if_neg Bool.false_ne_true, hwire] at hr
      cases hr
    · rintro ⟨hnone, -⟩
      cases hnone

/-- An event that its id alone tells from another. -/
def eventNamed (id : String) : Obj := [("_centralops", .obj [("event_id", .str id)])]

def goodEvent (ev : Obj) : Bool := senderEventId .ascii ev = "good"

theorem good_batch_isolated :
    ∃ r, SenderKind.otlp.sendBatch .ascii
        { server := repliesTo (partialAnswer goodEvent .null) [eventNamed "good"] }
        [eventNamed "good"] = .ok r ∧
      IsolatesPoison .ascii goodEvent [eventNamed "good"] r :=
  (otlp_isolates_iff .ascii (fun _ => none) goodEvent .null [eventNamed "good"] (by decide)).2
    ⟨rfl, by decide +kernel⟩

/-- Of two events one is bad; sent alone it is accepted. -/
theorem poison_accepted :
    SenderKind.otlp.sendBatch .ascii
        { server := repliesTo (partialAnswer goodEvent .null) [eventNamed "good", eventNamed "bad"] }
        [eventNamed "good", eventNamed "bad"] = .ok { accepted := 2 } ∧
      ¬ IsolatesPoison .ascii goodEvent [eventNamed "good", eventNamed "bad"] { accepted := 2 } := by
  constructor
  · decide +kernel
  · intro h
    have haccepted := h.accepted
    revert haccepted
    decide +kernel

end CentralOps
