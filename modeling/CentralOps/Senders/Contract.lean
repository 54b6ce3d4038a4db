import CentralOps.Senders.Clients

namespace CentralOps
set_option autoImplicit true

inductive SenderKind where
  | clickhouse | elasticBulk | otlp | splunkHec | logscale | kafka
  deriving DecidableEq

/-- What is outside a sender: whether an event can be serialised, `json.loads`, the server's
replies in the order of the requests, and the broker's. -/
structure Outside where
  wire : Obj → Option PyError := fun _ => none
  loads : String → Except PyError Json := fun _ => .error .valueError
  server : Nat → HttpReply
  producer : Bool := true
  broker : Nat → KafkaReply := fun _ => .sent

section Contract
variable (rt : Runtime)

def SenderKind.sendBatch (out : Outside) (batch : List Obj) :
    SenderKind → Except PyError DeliveryResult
  | .clickhouse =>
    (clickhouseSendBatch rt out.loads out.wire out.server batch).map (SendReport.result rt batch)
  | .elasticBulk => (elasticSendBatch rt out.wire out.server batch).map (SendReport.result rt batch)
  | .otlp => (otlpSendBatch rt out.wire out.server batch).map (SendReport.result rt batch)
  | .splunkHec => (splunkSendBatch rt out.wire out.server batch).map (SendReport.result rt batch)
  | .logscale => (logscaleSendBatch out.wire out.server batch).map (SendReport.result rt batch)
  | .kafka =>
    (kafkaSendBatch rt out.wire out.producer out.broker batch).map
      (fun outcomes => (tally rt batch outcomes).fullResult)

/-- `send_batch` returns, with a result that accounts for every event. -/
def SenderKind.Accounts (kind : SenderKind) (out : Outside) (batch : List Obj) : Prop :=
  ∃ r, kind.sendBatch rt out batch = .ok r ∧ AccountsForAll rt batch r

/-- The header of a 2xx answer is absent or not a number of rows, or says that no row or every
row was written. -/
def honestSummary (loads : String → Except PyError Json) (n : Nat) (r : HttpResponse) : Prop :=
  r.summary.getD "" = "" ∨
    match writtenRows rt loads (r.summary.getD "") with
    | .ok escritas => escritas ≤ 0 ∨ escritas = n
    | .error e => e = .valueError ∨ e = .typeError ∨ e = .attributeError

def readableBulk (n : Nat) (o : Obj) : Prop :=
  ∃ items, sizedItems (Obj.getN o "items") = .ok items ∧
    (items.length = n → ∀ item ∈ items, ∃ oc, itemOutcome rt item = .ok oc)

/-- Serialising raises nothing but what the sender takes for a rejection. -/
def guardedWire (out : Outside) (batch : List Obj) : Prop :=
  ∀ e, batch.findSome? out.wire = some e → e = .typeError ∨ e = .valueError

/-- The batches and answers a sender can account for. -/
def SenderKind.Meets (out : Outside) (batch : List Obj) : SenderKind → Prop
  | .clickhouse => guardedWire out batch ∧ (batch.findSome? out.wire = none →
      ∀ r, out.server 0 = .response r → r.ok2xx = true → honestSummary rt out.loads batch.length r)
  | .elasticBulk => batch.findSome? out.wire = none ∧
      ∀ r o, out.server 0 = .response r → specialStatus r = false → r.body = .obj o →
        (Obj.getN o "errors").truthy = true → readableBulk rt batch.length o
  | .otlp | .splunkHec => batch.findSome? out.wire = none
  | .logscale => guardedWire out batch
  | .kafka => out.producer = true → batch.findSome? out.wire = none

end Contract

section Accounts
variable {rt : Runtime} {out : Outside} {batch : List Obj}

theorem perEvent_accounts (outcomes : List EventOutcome) (h : batch.length = outcomes.length) :
    AccountsForAll rt batch (SendReport.result rt batch (.perEvent outcomes)) :=
  tally_result_accounts batch outcomes h

theorem replicate_accounts (batch : List Obj) (oc : EventOutcome) :
    AccountsForAll rt batch
      (SendReport.result rt batch (.perEvent (List.replicate batch.length oc))) :=
  perEvent_accounts _ (by simp)

theorem wrote_accounts_iff (rows : Nat) :
    AccountsForAll rt batch (SendReport.result rt batch (.wrote rows)) ↔ rows = batch.length := by
  constructor
  · rintro (hretry | ⟨hsum, -⟩)
    · cases hretry
    · exact hsum
  · intro h
    exact .inr ⟨h, [], List.nodup_nil, .nil⟩

theorem fallbackIndividual_length (single : HttpReply → EventOutcome) (server : Nat → HttpReply)
    (n : Nat) (reason errorKind : String) :
    (fallbackIndividual single server n reason errorKind).length = n := by
  unfold fallbackIndividual
  split
  · exact List.length_replicate
  · simp

theorem splunkOutcomes_length (server : Nat → HttpReply) (n : Nat) :
    (splunkOutcomes rt server n).length = n := by
  unfold splunkOutcomes
  split
  · simp
  · split
    · simp
    · split
      · simp
      · exact fallbackIndividual_length _ _ _ _ _

theorem logscaleOutcomes_length (server : Nat → HttpReply) (n : Nat) :
    (logscaleOutcomes server n).length = n := by
  unfold logscaleOutcomes
  split
  · simp
  · split
    · simp
    · split
      · simp
      · exact fallbackIndividual_length _ _ _ _ _

theorem otlpOutcomes_length (server : Nat → HttpReply) (n : Nat) :
    (otlpOutcomes rt server n).length = n := by
  unfold otlpOutcomes
  split
  · simp
  · split
    · simp
    · split
      · simp
      · split
        · split
          · exact fallbackIndividual_length _ _ _ _ _
          · simp
        · exact fallbackIndividual_length _ _ _ _ _

theorem plain_accounts_iff (outcomes : List EventOutcome)
    (hlen : batch.length = outcomes.length) {send : Except PyError SendReport}
    (hsend : send = match batch.findSome? out.wire with
      | some e => .error e
      | none => .ok (.perEvent outcomes)) :
    (∃ r, send.map (SendReport.result rt batch) = .ok r ∧ AccountsForAll rt batch r) ↔
      batch.findSome? out.wire = none := by
  rw [hsend]
  cases batch.findSome? out.wire with
  | some e =>
    constructor
    · rintro ⟨r, hr, -⟩
      cases hr
    · intro h
      cases h
  | none => exact ⟨fun _ => rfl, fun _ => ⟨_, rfl, perEvent_accounts outcomes hlen⟩⟩

theorem orRejected_other (n : Nat) {e : PyError} (h : ¬ (e = .typeError ∨ e = .valueError)) :
    orRejected n (.error e) = .error e := by
  cases e with
  | typeError => simp at h
  | valueError => simp at h
  | keyError => rfl
  | attributeError => rfl
  | overflowError => rfl
  | recursionError => rfl

theorem orRejected_error (e : PyError) :
    (∃ r, (orRejected batch.length (.error e)).map (SendReport.result rt batch) = .ok r ∧
      AccountsForAll rt batch r) ↔ e = .typeError ∨ e = .valueError := by
  constructor
  · rintro ⟨r, hr, -⟩
    by_contra hno
    rw [orRejected_other _ hno] at hr
    cases hr
  · rintro (rfl | rfl)
    · exact ⟨_, rfl, replicate_accounts batch _⟩
    · exact ⟨_, rfl, replicate_accounts batch _⟩

theorem guardedWire_iff (h : batch.findSome? out.wire = some e) :
    guardedWire out batch ↔ e = .typeError ∨ e = .valueError := by
  unfold guardedWire
  rw [h]
  exact ⟨fun hall => hall e rfl, fun he e' heq => Option.some.inj heq ▸ he⟩

theorem guardedWire_none (h : batch.findSome? out.wire = none) : guardedWire out batch := by
  intro e he
  rw [h] at he
  cases he

theorem logscale_accounts_iff (hne : batch ≠ []) :
    SenderKind.logscale.Accounts rt out batch ↔ SenderKind.logscale.Meets rt out batch := by
  unfold SenderKind.Accounts SenderKind.sendBatch logscaleSendBatch
  rw [if_neg (by simpa using hne)]
  cases hwire : batch.findSome? out.wire with
  | some e =>
    exact (orRejected_error e).trans (guardedWire_iff hwire).symm
  | none =>
    have hlen : batch.length = (logscaleOutcomes out.server batch.length).length :=
      (logscaleOutcomes_length _ _).symm
    exact ⟨fun _ => guardedWire_none hwire, fun _ => ⟨_, rfl, perEvent_accounts _ hlen⟩⟩

theorem kafka_accounts_iff (hne : batch ≠ []) :
    SenderKind.kafka.Accounts rt out batch ↔ SenderKind.kafka.Meets rt out batch := by
  unfold SenderKind.Accounts SenderKind.sendBatch kafkaSendBatch
  rw [if_neg (by simpa using hne)]
  cases hup : out.producer with
  | false =>
    refine ⟨fun _ h => absurd (hup.symm.trans h) (by simp), fun _ => ⟨_, rfl, ?_⟩⟩
    exact tally_fullResult_accounts batch _ (by simp)
  | true =>
    cases hwire : batch.findSome? out.wire with
    | some e =>
      constructor
      · rintro ⟨r, hr, -⟩
        cases hr
      · intro h
        cases (h hup).symm.trans hwire
    | none =>
      refine ⟨fun _ _ => hwire, fun _ => ⟨_, rfl, ?_⟩⟩
      exact tally_fullResult_accounts batch _ (by simp)

theorem resultadoDeSucesso_accounts_iff (r : HttpResponse) :
    (∃ res, (orRejected batch.length (resultadoDeSucesso rt out.loads r batch.length)).map
        (SendReport.result rt batch) = .ok res ∧ AccountsForAll rt batch res) ↔
      honestSummary rt out.loads batch.length r := by
  have hall : ∃ res, (orRejected batch.length (.ok (.wrote batch.length))).map
      (SendReport.result rt batch) = .ok res ∧ AccountsForAll rt batch res :=
    ⟨_, rfl, (wrote_accounts_iff _).2 rfl⟩
  have raises : ∀ {e : PyError} {p : Prop}, (∃ res, (Except.error e : Except PyError SendReport).map
      (SendReport.result rt batch) = .ok res ∧ AccountsForAll rt batch res) → p := by
    rintro e p ⟨res, hres, -⟩
    cases hres
  unfold resultadoDeSucesso honestSummary
  dsimp only
  by_cases hbruto : r.summary.getD "" = ""
  · rw [if_pos hbruto]
    exact ⟨fun _ => .inl hbruto, fun _ => hall⟩
  · rw [if_neg hbruto]
    simp only [hbruto, false_or]
    cases hrows : writtenRows rt out.loads (r.summary.getD "") with
    | error e =>
      cases e with
      | typeError => exact ⟨fun _ => .inr (.inl rfl), fun _ => hall⟩
      | valueError => exact ⟨fun _ => .inl rfl, fun _ => hall⟩
      | attributeError => exact ⟨fun _ => .inr (.inr rfl), fun _ => hall⟩
      | keyError => exact ⟨raises, by simp⟩
      | overflowError => exact ⟨raises, by simp⟩
      | recursionError => exact ⟨raises, by simp⟩
    | ok escritas =>
      dsimp only
      by_cases hfull : escritas < 0 ∨ escritas = batch.length
      · rw [if_pos hfull]
        exact ⟨fun _ => hfull.imp_left le_of_lt, fun _ => hall⟩
      · rw [if_neg hfull]
        by_cases hzero : escritas = 0
        · rw [if_pos hzero]
          exact ⟨fun _ => .inl hzero.le, fun _ => ⟨_, rfl, replicate_accounts batch _⟩⟩
        · rw [if_neg hzero]
          constructor
          · rintro ⟨res, hres, hacc⟩
            cases hres
            have := (wrote_accounts_iff _).1 hacc
            omega
          · intro h
            omega

theorem retryable_not_ok (h : clickhouseRetryable r = true) : r.ok2xx = false := by
  have hmem : r.status ∈ [429, 500, 502, 503, 504] := List.contains_iff_mem.1 h
  have hge : ¬ (200 ≤ r.status ∧ r.status < 300) := by
    simp only [List.mem_cons, List.not_mem_nil, or_false] at hmem
    omega
  simpa [HttpResponse.ok2xx] using hge

theorem clickhouse_accounts_iff (hne : batch ≠ []) :
    SenderKind.clickhouse.Accounts rt out batch ↔ SenderKind.clickhouse.Meets rt out batch := by
  unfold SenderKind.Accounts SenderKind.sendBatch clickhouseSendBatch
  rw [if_neg (by simpa using hne)]
  cases hwire : batch.findSome? out.wire with
  | some e =>
    refine (orRejected_error e).trans ((guardedWire_iff hwire).symm.trans ?_)
    exact ⟨fun h => ⟨h, fun hn => by cases hwire.symm.trans hn⟩, fun h => h.1⟩
  | none =>
    have hmeets : SenderKind.clickhouse.Meets rt out batch ↔ ∀ r, out.server 0 = .response r →
        r.ok2xx = true → honestSummary rt out.loads batch.length r :=
      ⟨fun h => h.2 hwire, fun h => ⟨guardedWire_none hwire, fun _ => h⟩⟩
    rw [hmeets]
    dsimp only
    cases hreply : out.server 0 with
    | connectionError detail =>
      exact ⟨fun _ r hr => absurd hr (by simp), fun _ => ⟨_, rfl, replicate_accounts batch _⟩⟩
    | response r =>
      have hone : (∀ r', HttpReply.response r = .response r' → r'.ok2xx = true →
          honestSummary rt out.loads batch.length r') ↔
          (r.ok2xx = true → honestSummary rt out.loads batch.length r) :=
        ⟨fun h => h r rfl, fun h r' heq => by cases heq; exact h⟩
      rw [hone]
      unfold clickhouseReport
      dsimp only
      by_cases hretry : clickhouseRetryable r = true
      · have hnot : r.ok2xx = false := retryable_not_ok hretry
        rw [if_pos hretry, hnot]
        exact ⟨fun _ h => absurd h (by simp), fun _ => ⟨_, rfl, replicate_accounts batch _⟩⟩
      · rw [if_neg hretry]
        cases hok : r.ok2xx with
        | true =>
          rw [if_pos rfl, resultadoDeSucesso_accounts_iff]
          exact ⟨fun h _ => h, fun h => h rfl⟩
        | false =>
          exact ⟨fun _ h => absurd h (by simp), fun _ => ⟨_, rfl, replicate_accounts batch _⟩⟩

theorem elasticOutcomes_length {reply : HttpReply}
    (h : elasticOutcomes rt n reply = .ok outcomes) : n = outcomes.length := by
  cases reply with
  | connectionError detail =>
    cases h
    simp
  | response r =>
    unfold elasticOutcomes at h
    dsimp only at h
    split at h
    · cases h
      simp
    · split at h
      · cases h
        simp
      · split at h
        · split at h
          · exact bulkOutcomes_length h
          · cases h
            simp
        · cases h
          simp

theorem elasticOutcomes_ok_iff (rt : Runtime) (n : Nat) (reply : HttpReply) :
    (∃ outcomes, elasticOutcomes rt n reply = .ok outcomes) ↔
      ∀ r o, reply = .response r → specialStatus r = false → r.body = .obj o →
        (Obj.getN o "errors").truthy = true → readableBulk rt n o := by
  cases reply with
  | connectionError detail => exact ⟨fun _ r o hr => absurd hr (by simp), fun _ => ⟨_, rfl⟩⟩
  | response r =>
    cases hspecial : specialStatus r with
    | true =>
      obtain ⟨oc, -, heq⟩ := elasticOutcomes_special rt hspecial n
      refine ⟨fun _ r' o hr hs => ?_, fun _ => ⟨_, heq⟩⟩
      cases hr
      rw [hspecial] at hs
      cases hs
    | false =>
      obtain ⟨hretry, hauth⟩ := not_special hspecial
      simp only [elasticOutcomes, hretry, hauth, Bool.false_eq_true, if_false]
      split
      · next o hbody =>
        split
        · next herr =>
          rw [bulkOutcomes_ok_iff]
          refine ⟨fun h r' o' hr _ hbody' _ => ?_, fun h => h r o rfl hspecial hbody herr⟩
          cases hr
          rw [hbody] at hbody'
          cases hbody'
          exact h
        · next herr =>
          refine ⟨fun _ r' o' hr _ hbody' herr' => ?_, fun _ => ⟨_, rfl⟩⟩
          cases hr
          rw [hbody] at hbody'
          cases hbody'
          exact absurd herr' herr
      · next hno =>
        refine ⟨fun _ r' o' hr _ hbody' => ?_, fun _ => ⟨_, rfl⟩⟩
        cases hr
        exact absurd hbody' (hno o')

theorem elastic_accounts_iff (hne : batch ≠ []) :
    SenderKind.elasticBulk.Accounts rt out batch ↔ SenderKind.elasticBulk.Meets rt out batch := by
  unfold SenderKind.Accounts SenderKind.sendBatch SenderKind.Meets elasticSendBatch
  rw [if_neg (by simpa using hne), ← elasticOutcomes_ok_iff]
  cases hwire : batch.findSome? out.wire with
  | some e =>
    constructor
    · rintro ⟨r, hr, -⟩
      cases hr
    · rintro ⟨h, -⟩
      cases h
  | none =>
    cases hout : elasticOutcomes rt batch.length (out.server 0) with
    | error e =>
      constructor
      · rintro ⟨r, hr, -⟩
        cases hr
      · rintro ⟨-, outcomes, h⟩
        cases h
    | ok outcomes =>
      refine ⟨fun _ => ⟨rfl, outcomes, rfl⟩, fun _ => ⟨_, rfl, ?_⟩⟩
      exact perEvent_accounts outcomes (elasticOutcomes_length hout)

theorem otlp_accounts_iff (hne : batch ≠ []) :
    SenderKind.otlp.Accounts rt out batch ↔ SenderKind.otlp.Meets rt out batch := by
  apply plain_accounts_iff (otlpOutcomes rt out.server batch.length)
    (otlpOutcomes_length out.server batch.length).symm
  unfold otlpSendBatch
  exact if_neg (by simpa using hne)

theorem splunk_accounts_iff (hne : batch ≠ []) :
    SenderKind.splunkHec.Accounts rt out batch ↔ SenderKind.splunkHec.Meets rt out batch := by
  apply plain_accounts_iff (splunkOutcomes rt out.server batch.length)
    (splunkOutcomes_length out.server batch.length).symm
  unfold splunkSendBatch
  exact if_neg (by simpa using hne)

end Accounts

/-- Every sender accounts for every event of a batch exactly on what it can account for. -/
theorem sender_accounts_iff (rt : Runtime) (kind : SenderKind) (out : Outside) (batch : List Obj)
    (hne : batch ≠ []) : kind.Accounts rt out batch ↔ kind.Meets rt out batch := by
  cases kind with
  | clickhouse => exact clickhouse_accounts_iff hne
  | elasticBulk => exact elastic_accounts_iff hne
  | otlp => exact otlp_accounts_iff hne
  | splunkHec => exact splunk_accounts_iff hne
  | logscale => exact logscale_accounts_iff hne
  | kafka => exact kafka_accounts_iff hne

/-- A ClickHouse server that says it wrote one row. -/
def wroteOneRow : Outside where
  loads text := if text = "summary" then .ok (.obj [("written_rows", .str "1")])
    else .error .valueError
  server _ := .response { status := 200, summary := some "summary" }

/-- The rows of `written_rows` are strings of digits. -/
def Runtime.digits : Runtime :=
  { Runtime.ascii with int := fun s => if s = "1" then some 1 else none }

theorem wroteOneRow_honest (r : HttpResponse) (h : wroteOneRow.server 0 = .response r) :
    honestSummary .digits wroteOneRow.loads 1 r := by
  cases h
  exact .inr (.inr rfl)

theorem sender_accounts_one_row : SenderKind.clickhouse.Accounts .digits wroteOneRow [[]] :=
  (sender_accounts_iff .digits .clickhouse wroteOneRow [[]] (by simp)).2
    ⟨guardedWire_none rfl, fun _ r hr _ => wroteOneRow_honest r hr⟩

/-- Of two events one row is written, and the other is neither rejected nor retried. -/
theorem partial_insert_drops_event :
    ¬ SenderKind.clickhouse.Accounts .digits wroteOneRow [[], []] := by
  rintro ⟨r, hr, hacc⟩
  have hres : SenderKind.clickhouse.sendBatch .digits wroteOneRow [[], []] =
      .ok { accepted := 1 } := by
    decide +kernel
  rw [hres] at hr
  cases hr
  rcases hacc with hretry | ⟨hsum, -⟩
  · cases hretry
  · cases hsum

end CentralOps
