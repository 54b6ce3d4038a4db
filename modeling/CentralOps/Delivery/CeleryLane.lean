import CentralOps.Lib.System
import CentralOps.Delivery.DrainSafety

namespace CentralOps
set_option autoImplicit true

/-- `_RETRYABLE`. -/
def DispatchError.celeryRetryable : DispatchError → Bool
  | .transient | .connection => true
  | .breakerOpen | .other => false

def celeryMaxRetries : Nat := 10

/-- The arguments of a `dispatch_to_dlq` message. -/
structure DlqMessage where
  batch : List Obj
  destinationId : String
  kind : String := "unknown"
  errorKind : String
  deriving DecidableEq

/-- What a batch's message has led to so far, and the retries it has left: `none` once it is
acknowledged. -/
structure LaneState where
  delivery : DeliveryState := {}
  dlqQueue : List DlqMessage := []
  retriesLeft : Option Nat := some celeryMaxRetries

section Lane
variable (rt : Runtime) (settings : Settings) (env : Environment) (destId : String)
  (batch : List Obj)

def LaneState.dispatchToDlq (s : LaneState) (errorKind : String) : LaneState :=
  { s with dlqQueue := s.dlqQueue ++
      [{ batch := batch, destinationId := destId, errorKind := errorKind }] }

def runDispatchToDestination (s : LaneState) : Ending LaneState DispatchError Unit :=
  match dispatchBatchToDestination rt settings env destId batch s.delivery with
  | .ok _ d => .ok () { s with delivery := d }
  | .crashed d => .crashed { s with delivery := d }
  | .raised e d =>
    if e.celeryRetryable then .raised e { s with delivery := d }
    else if e = .breakerOpen then
      .ok () (LaneState.dispatchToDlq destId batch { s with delivery := d } "breaker_open")
    else .raised e (LaneState.dispatchToDlq destId batch { s with delivery := d } "exhausted")

/-- One delivery of the message to a worker. A worker that is lost gives the message back; a
retryable error queues it again while there are retries left; any other end acknowledges it. -/
def celeryDeliver (s : LaneState) (left : Nat) : LaneState :=
  match runDispatchToDestination rt settings env destId batch s with
  | .ok _ s' => { s' with retriesLeft := none }
  | .crashed s' => s'
  | .raised e s' =>
    { s' with retriesLeft := if e.celeryRetryable && decide (0 < left) then some (left - 1)
                             else none }

/-- The life of one message: it is delivered while it is not acknowledged. -/
def celeryLane : System LaneState Nat where
  enabled s left := s.retriesLeft = some left
  next s left := celeryDeliver rt settings env destId batch s left

end Lane

section Statement
variable (rt : Runtime) (settings : Settings) (destId : String)

/-- A dead letter of the destination holds the event. -/
def Parked (dlq : Dict String DeadLetter) (e : Obj) : Prop :=
  ∃ i row, dlq.get? i = some row ∧ row.destinationId = destId ∧ row.payload = .stored e

def Held (s : DeliveryState) (e : Obj) : Prop :=
  ReportedAccepted rt s.trace e ∨ Parked destId s.dlq e

/-- The event was accepted, or is in a dead letter, or is on its way to one. -/
def LaneState.Accounts (s : LaneState) (e : Obj) : Prop :=
  Held rt destId s.delivery e ∨ ∃ m ∈ s.dlqQueue, m.destinationId = destId ∧ e ∈ m.batch

/-- The destination sends what it is given without aggregating it, a final answer accounts for
the whole chunk and names its events, and the database takes what is parked. -/
def Action.Accountable : Action → Prop
  | .dispatched none _ => True
  | .dispatched (some cfg) batch =>
    crossTenant rt cfg batch = true ∨
      cfg.delivery.shadow = false ∧ aggregates settings cfg = false
  | .sent _ none => True
  | .sent chunk (some r) =>
    r.retryable = true ∨ accountsFor rt chunk r ∧
      ∀ rej ∈ r.rejected, ∃ x ∈ chunk, envelopeEventId rt x = some rej.eventId
  | .parked _ written => written = true

def RowAgrees (batch : List Obj) (row : DeadLetter) : Prop :=
  row.destinationId = destId →
    ∀ e ∈ batch, envelopeEventId rt e = some row.eventId → row.payload = .stored e

/-- An event id stands for one event: in the batch, in the table, and among the ids that are
generated. -/
structure Identified (env : Environment) (batch : List Obj) (dlq : Dict String DeadLetter) :
    Prop where
  unique : ∀ e ∈ batch, ∀ e' ∈ batch, ∀ id, envelopeEventId rt e = some id →
    envelopeEventId rt e' = some id → e' = e
  rows : AllRows (RowAgrees rt destId batch) dlq
  generated : ∀ used, ∀ e ∈ batch, envelopeEventId rt e ≠ some (env.uuid used)

/-- The steps of a dispatch are accountable, and with no retries left it does not end in a
retryable error. -/
def Accountable (env : Environment) (batch : List Obj) (s : LaneState) (left : Nat) : Prop :=
  (∀ a ∈ (celeryDeliver rt settings env destId batch s left).delivery.trace,
    a.Accountable rt settings) ∧
  (left = 0 → ∀ e d, dispatchBatchToDestination rt settings env destId batch s.delivery =
    .raised e d → e.celeryRetryable = false)

end Statement

section Dispatch
variable {rt : Runtime} {settings : Settings} {env : Environment} {destId : String}
  {batch : List Obj}

theorem rowAgrees_reasonless : Reasonless (RowAgrees rt destId batch) := by
  intro r r' hsame h hdest e he hid
  rw [hsame.destinationId] at hdest
  rw [hsame.eventId] at hid
  rw [hsame.payload]
  exact h hdest e he hid

theorem parked_stable : DispatchStable rt env (fun s => Parked destId s.dlq e) where
  timeless _ _ h := h
  log _ _ h := h
  rejected s destId destOrg rejs chunk h := by
    obtain ⟨i, row, hget, hdest, hpay⟩ := h
    obtain ⟨r, hget', hsame, -⟩ := get?_storeRejected rt env destId destOrg rejs chunk hget
    exact ⟨i, r, hget', hsame.destinationId.trans hdest, hsame.payload.trans hpay⟩
  batch s xs destId errorKind org detail h := by
    obtain ⟨i, row, hget, hdest, hpay⟩ := h
    obtain ⟨r, hget', hsame, -⟩ := get?_storeBatch rt env xs destId errorKind org detail hget
    exact ⟨i, r, hget', hsame.destinationId.trans hdest, hsame.payload.trans hpay⟩

theorem held_stable : DispatchStable rt env (fun s => Held rt destId s e) where
  timeless _ _ h := h
  log s a h := h.imp_left (fun hacc => hacc.mono rt (subset_log s a))
  rejected s d o x c h := h.imp_right (parked_stable.rejected s d o x c)
  batch s x d k o t h := h.imp_right (parked_stable.batch s x d k o t)

theorem storeRejected_agrees {destOrg : Option Int} {rejected : List RejectedEvent}
    (hids : Identified rt destId env batch dlq₀) (hsub : chunk ⊆ batch)
    (hnamed : ∀ rej ∈ rejected, ∃ x ∈ chunk, envelopeEventId rt x = some rej.eventId)
    (h : AllRows (RowAgrees rt destId batch) dlq) :
    AllRows (RowAgrees rt destId batch)
      (storeRejected rt env destId destOrg rejected chunk dlq) := by
  unfold storeRejected
  rw [List.foldl_map]
  apply h.foldl rowAgrees_reasonless
  intro dlq rej hrej
  refine ⟨_, ?_, rfl⟩
  intro _ e he hid
  obtain ⟨x, hx, hxid⟩ := hnamed rej hrej
  have hmem : x ∈ chunk.filter (fun e => envelopeEventId rt e = some rej.eventId) := by
    simp [hx, hxid]
  obtain ⟨y, hy⟩ := Option.ne_none_iff_exists'.1
    (mt List.getLast?_eq_none_iff.1 (List.ne_nil_of_mem hmem))
  obtain ⟨hychunk, hyid⟩ := List.mem_filter.1 (List.mem_of_getLast? hy)
  have hye : y = e := hids.unique e he y (hsub hychunk) rej.eventId hid (by simpa using hyid)
  simp [rejectedRow, get?_buildEventMap, hy, hye]

theorem storeRejected_parks {destOrg : Option Int} {r : DeliveryResult}
    (hids : Identified rt destId env batch dlq₀) (hsub : chunk ⊆ batch)
    (hnamed : ∀ rej ∈ r.rejected, ∃ x ∈ chunk, envelopeEventId rt x = some rej.eventId)
    (h : AllRows (RowAgrees rt destId batch) dlq) (he : e ∈ chunk) (hrej : rejects rt r e = true) :
    Parked destId (storeRejected rt env destId destOrg r.rejected chunk dlq) e := by
  have hagree : AllRows (RowAgrees rt destId batch)
      (storeRejected rt env destId destOrg r.rejected chunk dlq) :=
    storeRejected_agrees hids hsub hnamed h
  unfold rejects at hrej
  split at hrej
  · next id hid =>
    obtain ⟨rej, hmem, heq⟩ := List.any_eq_true.1 hrej
    have hrejId : rej.eventId = id := by simpa using heq
    obtain ⟨i, row, hget, hdest, hrow⟩ :=
      storeRejected_present rt env destId destOrg chunk hmem dlq
    exact ⟨i, row, hget, hdest,
      hagree i row hget hdest e (hsub he) (by rw [hid, hrow, hrejId])⟩
  · cases hrej

theorem batchRow_agrees (hids : Identified rt destId env batch dlq₀) (he : e ∈ batch)
    (used : List String) :
    RowAgrees rt destId batch (batchRow destId errorKind org detail
      ((envelopeEventId rt e).getD (env.uuid used)) e) := by
  intro _ e' he' hid'
  cases hid : envelopeEventId rt e with
  | some id =>
    have hid'' : envelopeEventId rt e' = some id := by simpa [batchRow, hid] using hid'
    rw [hids.unique e he e' he' id hid hid'']
    rfl
  | none =>
    have hid'' : envelopeEventId rt e' = some (env.uuid used) := by
      simpa [batchRow, hid] using hid'
    exact absurd hid'' (hids.generated used e' he')

theorem storeBatch_agrees (hids : Identified rt destId env batch dlq₀)
    (h : AllRows (RowAgrees rt destId batch) dlq) :
    AllRows (RowAgrees rt destId batch)
      (storeBatch rt env batch destId errorKind org detail dlq) :=
  h.foldl rowAgrees_reasonless batch (fun _ _ hx => ⟨_, batchRow_agrees hids hx _, rfl⟩)

/-- A row under the key of an event of the batch holds that event. -/
theorem insertBatchRow_parks (hids : Identified rt destId env batch dlq₀) (he : e ∈ batch)
    (h : AllRows (RowAgrees rt destId batch) dlq) :
    Parked destId (insertBatchRow rt env destId errorKind org detail dlq e) e := by
  have hnew : RowAgrees rt destId batch (batchRow destId errorKind org detail
      ((envelopeEventId rt e).getD (env.uuid (dlq.entries.map (fun p => p.2.eventId)))) e) :=
    batchRow_agrees hids he _
  obtain ⟨i, r, hget, hclash, hfree⟩ := upsert_present env dlq (batchRow destId errorKind org detail
    ((envelopeEventId rt e).getD (env.uuid (dlq.entries.map (fun p => p.2.eventId)))) e)
  obtain ⟨hdest, hkey⟩ := clash_iff.1 hclash
  refine ⟨i, r, hget, hdest, ?_⟩
  cases hid : envelopeEventId rt e with
  | some id =>
    have hagree := h.upsert rowAgrees_reasonless hnew i r hget
    exact hagree hdest e he (by rw [hkey, hid]; rfl)
  | none =>
    rw [hfree]
    · rfl
    · intro j r' hget'
      rw [Bool.eq_false_iff]
      intro hclash'
      have hmem : r'.eventId ∈ dlq.entries.map (fun p => p.2.eventId) :=
        List.mem_map.2 ⟨_, dlq.mem_entries_iff.2 hget', rfl⟩
      have hkey' := (clash_iff.1 hclash').2
      rw [hid] at hkey'
      rw [hkey'] at hmem
      exact env.uuid_fresh _ hmem

theorem storeBatch_parks (hids : Identified rt destId env batch dlq₀) (he : e ∈ batch)
    (h : AllRows (RowAgrees rt destId batch) dlq) :
    Parked destId (storeBatch rt env batch destId errorKind org detail dlq) e := by
  have hput : ∀ dlq, AllRows (RowAgrees rt destId batch) dlq →
      Parked destId (insertBatchRow rt env destId errorKind org detail dlq e) e :=
    fun _ hdlq => insertBatchRow_parks hids he hdlq
  have hw : ∀ dlq x, ∃ w, insertBatchRow rt env destId errorKind org detail dlq x =
      upsertDeadLetter env dlq w := fun _ _ => ⟨_, rfl⟩
  refine foldl_present (I := AllRows (RowAgrees rt destId batch)) ?_ batch hw ?_ he hput h
  · exact fun r r' hsame hr => ⟨hsame.destinationId.trans hr.1, hsame.payload.trans hr.2⟩
  · exact fun dlq x hx hdlq => hdlq.upsert rowAgrees_reasonless (batchRow_agrees hids hx _)

/-- While the steps are accountable, only parts of the batch are sent and the rows agree with
it. -/
def Lawful (rt : Runtime) (settings : Settings) (destId : String) (batch : List Obj)
    (s : DeliveryState) : Prop :=
  (∀ a ∈ s.trace, a.Accountable rt settings) →
    SentOnly (· ⊆ batch) s ∧ AllRows (RowAgrees rt destId batch) s.dlq

theorem Lawful.log (h : Lawful rt settings destId batch s) (a : Action)
    (ha : (∀ x ∈ (s.log a).trace, x.Accountable rt settings) →
      ∀ chunk answer, a = .sent chunk answer → chunk ⊆ batch) :
    Lawful rt settings destId batch (s.log a) := by
  intro hall
  obtain ⟨hsent, hrows⟩ := h (fun x hx => hall x (subset_log s a hx))
  exact ⟨hsent.log a (ha hall), hrows⟩

/-- The chunks of a destination that neither aggregates nor turns the batch away are parts of
the batch. -/
theorem chunk_subset {cfg : DestinationConfig} (hguard : crossTenant rt cfg batch = false)
    (hchunk : chunk ∈ chunksFor rt settings cfg batch)
    (ha : Action.Accountable rt settings (.dispatched (some cfg) batch)) : chunk ⊆ batch := by
  rcases ha with hcross | ⟨-, hagg⟩
  · rw [hguard] at hcross
    cases hcross
  · intro x hx
    have hout := (mem_chunksFor rt settings cfg batch).1 ⟨chunk, hchunk, hx⟩
    simpa [outgoing, hagg] using hout

theorem sent_accountable {trace : List Action} (hall : ∀ a ∈ trace, a.Accountable rt settings)
    (hsent : .sent chunk (some r) ∈ trace) (hretry : r.retryable = false) :
    accountsFor rt chunk r ∧
      ∀ rej ∈ r.rejected, ∃ x ∈ chunk, envelopeEventId rt x = some rej.eventId := by
  rcases hall _ hsent with hr | hr
  · rw [hretry] at hr
    cases hr
  · exact hr

def Sending (rt : Runtime) (settings : Settings) (destId : String) (cfg : DestinationConfig)
    (batch : List Obj) (s : DeliveryState) : Prop :=
  .dispatched (some cfg) batch ∈ s.trace ∧ Lawful rt settings destId batch s

theorem sending_stable {cfg : DestinationConfig} (hids : Identified rt destId env batch dlq₀)
    (hguard : crossTenant rt cfg batch = false) :
    SendStable rt env destId cfg.organizationId (· ∈ chunksFor rt settings cfg batch)
      (Sending rt settings destId cfg batch) where
  timeless _ _ h := h
  sent s chunk a hchunk h := by
    refine ⟨subset_log s _ h.1, h.2.log _ ?_⟩
    intro hall chunk' answer heq
    cases heq
    exact chunk_subset hguard hchunk (hall _ (subset_log s _ h.1))
  rejected s chunk r hsent hretry h := by
    refine ⟨h.1, ?_⟩
    intro hall
    obtain ⟨honly, hrows⟩ := h.2 hall
    exact ⟨honly, storeRejected_agrees hids (honly _ _ hsent)
      (sent_accountable hall hsent hretry).2 hrows⟩

def ChunkHeld (rt : Runtime) (settings : Settings) (destId : String) (chunk : List Obj)
    (s : DeliveryState) : Prop :=
  (∀ a ∈ s.trace, a.Accountable rt settings) → ∀ e ∈ chunk, Held rt destId s e

theorem reported_of_not_rejected (hsent : .sent chunk (some r) ∈ trace)
    (hacc : accountsFor rt chunk r) (he : e ∈ chunk) (hno : ¬ rejects rt r e = true) :
    ReportedAccepted rt trace e :=
  ⟨chunk, r, hsent, he, by simpa using hno, hacc⟩

theorem chunkHeld_done {cfg : DestinationConfig} (hids : Identified rt destId env batch dlq₀) :
    ChunkDone rt env destId cfg.organizationId (· ∈ chunksFor rt settings cfg batch)
      (Sending rt settings destId cfg batch) (ChunkHeld rt settings destId) where
  stable chunk := by
    refine ⟨fun _ _ h => h, ?_, ?_⟩
    · intro s chunk' a _ h hall e he
      have hstable : DispatchStable rt env (fun s => Held rt destId s e) := held_stable
      exact hstable.log s _ (h (fun x hx => hall x (subset_log s _ hx)) e he)
    · intro s chunk' r _ _ h hall e he
      exact held_stable.rejected s _ _ _ _ (h hall e he)
  clean chunk r s hsent hretry hnone := by
    intro hall e he
    refine .inl (reported_of_not_rejected hsent (sent_accountable hall hsent hretry).1 he ?_)
    unfold rejects
    rw [hnone]
    split
    · simp
    · simp
  stored chunk r s hsent hretry h := by
    intro hall e he
    obtain ⟨honly, hrows⟩ := h.2 hall
    obtain ⟨hacc, hnamed⟩ := sent_accountable hall hsent hretry
    by_cases hrej : rejects rt r e = true
    · exact .inr (storeRejected_parks hids (honly _ _ hsent) hnamed hrows he hrej)
    · exact .inl (reported_of_not_rejected hsent hacc he hrej)

theorem deliver_holds {cfg : DestinationConfig} (hids : Identified rt destId env batch dlq₀)
    (hguard : crossTenant rt cfg batch = false) :
    Proc.Spec (Sending rt settings destId cfg batch) (deliver rt settings env destId cfg batch)
      (fun _ s => Lawful rt settings destId batch s ∧ ChunkHeld rt settings destId batch s)
      (Lawful rt settings destId batch) := by
  apply Proc.Spec.weaken
    (deliver_spec (sending_stable hids hguard) (chunkHeld_done hids) (fun _ _ h => h))
    (fun _ h => h) _ (fun _ h => h.2)
  rintro _ s ⟨⟨hdisp, hlaw⟩, hchunks⟩
  refine ⟨hlaw, ?_⟩
  intro hall e he
  rcases hall _ hdisp with hcross | ⟨hshadow, hagg⟩
  · rw [hguard] at hcross
    cases hcross
  · have hout : e ∈ outgoing rt settings cfg batch := by simpa [outgoing, hagg] using he
    obtain ⟨chunk, hchunk, hin⟩ := (mem_chunksFor rt settings cfg batch).2 hout
    exact hchunks hshadow chunk hchunk hall e hin

theorem park_holds (hids : Identified rt destId env batch dlq₀) (errorKind : String)
    (org : Option Int) (detail : Option String) :
    Proc.Spec (Lawful rt settings destId batch)
      (persistBatchDlq rt env batch destId errorKind org detail)
      (fun _ s => Lawful rt settings destId batch s ∧ ChunkHeld rt settings destId batch s)
      (Lawful rt settings destId batch) := by
  apply persistBatchDlq_spec (fun _ _ h => h)
  · rintro rfl s h
    exact ⟨h, fun _ e he => by cases he⟩
  · intro s h
    have hrows : (∀ a ∈ (s.log (.parked errorKind true)).trace, a.Accountable rt settings) →
        SentOnly (· ⊆ batch) s ∧ AllRows (RowAgrees rt destId batch) s.dlq :=
      fun hall => h (fun x hx => hall x (subset_log s _ hx))
    refine ⟨fun hall => ?_, fun hall e he => ?_⟩
    · exact ⟨(hrows hall).1.log _ (fun _ _ heq => by cases heq),
        storeBatch_agrees hids (hrows hall).2⟩
    · exact .inr (storeBatch_parks hids he (hrows hall).2)
  · intro s h
    refine ⟨h.log _ (fun _ _ _ heq => by cases heq), fun hall => ?_⟩
    have hwritten : false = true := hall (.parked errorKind false)
      (List.mem_append_right _ (by simp))
    cases hwritten

theorem dispatch_holds (hids : Identified rt destId env batch dlq₀) :
    Proc.Spec (Lawful rt settings destId batch)
      (dispatchBatchToDestination rt settings env destId batch)
      (fun _ s => Lawful rt settings destId batch s ∧ ChunkHeld rt settings destId batch s)
      (Lawful rt settings destId batch) := by
  apply Proc.Spec.bind (Proc.Spec.post
    (loadDestinationConfig_spec (I := Lawful rt settings destId batch) (fun _ _ h => h))
    (fun _ _ h => h.1))
  intro dest
  apply Proc.Spec.bind (Q := fun _ s => .dispatched dest batch ∈ s.trace ∧
    Lawful rt settings destId batch s)
  · apply Proc.Spec.modify
    intro s h
    exact ⟨List.mem_append_right _ (by simp), h.log _ (fun _ _ _ heq => by cases heq)⟩
  · intro _
    cases dest with
    | none =>
      apply Proc.Spec.bind (Proc.Spec.pre (park_holds hids _ _ _) (fun _ h => h.2))
      intro _
      exact Proc.Spec.pure (fun _ h => h)
    | some cfg =>
      apply Proc.Spec.ite
      · intro _
        apply Proc.Spec.bind (Proc.Spec.pre (park_holds hids _ _ _) (fun _ h => h.2))
        intro _
        exact Proc.Spec.pure (fun _ h => h)
      · intro hguard
        exact deliver_holds hids (by simpa using hguard)

end Dispatch

section Run
variable {rt : Runtime} {settings : Settings} {env : Environment} {destId : String}
  {batch : List Obj} {s : LaneState} {left : Nat} {d : DeliveryState}

theorem celeryDeliver_ok (left : Nat)
    (h : dispatchBatchToDestination rt settings env destId batch s.delivery = .ok () d) :
    celeryDeliver rt settings env destId batch s left =
      { s with delivery := d, retriesLeft := none } := by
  simp [celeryDeliver, runDispatchToDestination, h]

theorem celeryDeliver_crashed (left : Nat)
    (h : dispatchBatchToDestination rt settings env destId batch s.delivery = .crashed d) :
    celeryDeliver rt settings env destId batch s left = { s with delivery := d } := by
  simp [celeryDeliver, runDispatchToDestination, h]

theorem celeryDeliver_retryable (left : Nat)
    (h : dispatchBatchToDestination rt settings env destId batch s.delivery = .raised e d)
    (he : e.celeryRetryable = true) :
    celeryDeliver rt settings env destId batch s left =
      { s with delivery := d, retriesLeft := if 0 < left then some (left - 1) else none } := by
  simp [celeryDeliver, runDispatchToDestination, h, he]

theorem celeryDeliver_final (left : Nat)
    (h : dispatchBatchToDestination rt settings env destId batch s.delivery = .raised e d)
    (he : e.celeryRetryable = false) :
    ∃ errorKind, celeryDeliver rt settings env destId batch s left =
      { LaneState.dispatchToDlq destId batch { s with delivery := d } errorKind with
        retriesLeft := none } := by
  by_cases hb : e = .breakerOpen
  · exact ⟨"breaker_open", by simp [celeryDeliver, runDispatchToDestination, h, hb,
      DispatchError.celeryRetryable]⟩
  · exact ⟨"exhausted", by simp [celeryDeliver, runDispatchToDestination, h, he, hb]⟩

/-- The rows agree with the batch, and an acknowledged message has lost no event. -/
def LaneSafe (rt : Runtime) (settings : Settings) (destId : String) (batch : List Obj)
    (s : LaneState) : Prop :=
  Lawful rt settings destId batch s.delivery ∧
    (s.retriesLeft = none → ∀ e ∈ batch, s.Accounts rt destId e)

theorem celeryDeliver_safe (hids : Identified rt destId env batch dlq₀)
    (hsafe : LaneSafe rt settings destId batch s) (hleft : s.retriesLeft = some left)
    (hacc : Accountable rt settings destId env batch s left) :
    LaneSafe rt settings destId batch (celeryDeliver rt settings env destId batch s left) := by
  have hdispatch := dispatch_holds hids s.delivery hsafe.1
  cases hrun : dispatchBatchToDestination rt settings env destId batch s.delivery with
  | ok a d =>
    rw [hrun] at hdispatch
    have heq := celeryDeliver_ok left hrun
    rw [heq]
    refine ⟨hdispatch.1, fun _ e he => .inl (hdispatch.2 ?_ e he)⟩
    have hsteps := hacc.1
    rw [heq] at hsteps
    exact hsteps
  | crashed d =>
    rw [hrun] at hdispatch
    rw [celeryDeliver_crashed left hrun]
    exact ⟨hdispatch, fun hnone => by rw [hleft] at hnone; cases hnone⟩
  | raised e d =>
    rw [hrun] at hdispatch
    cases hretry : e.celeryRetryable with
    | true =>
      have hpos : 0 < left := by
        rw [Nat.pos_iff_ne_zero]
        intro hzero
        rw [hacc.2 hzero e d hrun] at hretry
        cases hretry
      rw [celeryDeliver_retryable left hrun hretry, if_pos hpos]
      exact ⟨hdispatch, fun hnone => by cases hnone⟩
    | false =>
      obtain ⟨errorKind, heq⟩ := celeryDeliver_final left hrun hretry
      rw [heq]
      refine ⟨hdispatch, fun _ e he => .inr ?_⟩
      exact ⟨{ batch := batch, destinationId := destId, errorKind := errorKind },
        List.mem_append_right _ (by simp), rfl, he⟩

/-- The message of the batch when it has just been queued. -/
def LaneState.queued (dlq : Dict String DeadLetter) : LaneState :=
  { delivery := { dlq := dlq } }

/-- Whatever happens, an acknowledged message has lost no event. -/
def LaneLosesNothing (rt : Runtime) (settings : Settings) (env : Environment) (destId : String)
    (batch : List Obj) (dlq : Dict String DeadLetter) : Prop :=
  ∀ s, (celeryLane rt settings env destId batch).Reaches (fun _ _ => True) (.queued dlq) s →
    s.retriesLeft = none → ∀ e ∈ batch, s.Accounts rt destId e

/-- In a run whose steps are accountable, an acknowledged message has lost no event. -/
theorem celery_loses_nothing (rt : Runtime) (settings : Settings) (env : Environment)
    (destId : String) (batch : List Obj) (dlq : Dict String DeadLetter)
    (hids : Identified rt destId env batch dlq) (s : LaneState)
    (hrun : (celeryLane rt settings env destId batch).Reaches
      (Accountable rt settings destId env batch) (.queued dlq) s)
    (hack : s.retriesLeft = none) : ∀ e ∈ batch, s.Accounts rt destId e := by
  have hstart : LaneSafe rt settings destId batch (.queued dlq) := by
    refine ⟨fun _ => ⟨?_, hids.rows⟩, fun hnone => by cases hnone⟩
    intro chunk answer hsent
    cases hsent
  have hsafe : LaneSafe rt settings destId batch s := by
    apply System.Reaches.invariant _ hrun hstart
    intro t left hsafe hleft hacc
    exact celeryDeliver_safe hids hsafe hleft hacc
  exact hsafe.2 hack

end Run

theorem freshId_ne (used : List String) (h : c ≠ '0') (cs : List Char) :
    String.ofList (c :: cs) ≠ freshId used := by
  intro he
  have hchars := congrArg String.toList he
  simp [freshId, List.replicate_succ, h] at hchars

theorem storedEvents_identified :
    Identified .ascii "siem" halfAccepting [storedEvent "a", storedEvent "b"] .empty where
  unique := by
    intro e he e' he' id hid hid'
    simp only [List.mem_cons, List.not_mem_nil, or_false] at he he'
    have ha : envelopeEventId .ascii (storedEvent "a") = some "a" := by decide +kernel
    have hb : envelopeEventId .ascii (storedEvent "b") = some "b" := by decide +kernel
    rcases he with rfl | rfl <;> rcases he' with rfl | rfl <;> simp_all
  rows := by
    intro i r hget
    cases hget
  generated := by
    intro used e he
    have ha : envelopeEventId .ascii (storedEvent "a") = some (String.ofList ['a']) := by
      decide +kernel
    have hb : envelopeEventId .ascii (storedEvent "b") = some (String.ofList ['b']) := by
      decide +kernel
    simp only [List.mem_cons, List.not_mem_nil, or_false] at he
    rcases he with rfl | rfl
    · rw [ha]
      exact fun h => freshId_ne used (by decide) [] (Option.some.inj h)
    · rw [hb]
      exact fun h => freshId_ne used (by decide) [] (Option.some.inj h)

def halfDelivered : LaneState :=
  celeryDeliver .ascii {} halfAccepting "siem" [storedEvent "a", storedEvent "b"]
    (.queued .empty) celeryMaxRetries

theorem halfDelivered_trace : halfDelivered.delivery.trace =
    [.dispatched (some { organizationId := some 1 }) [storedEvent "a", storedEvent "b"],
      .sent [storedEvent "a", storedEvent "b"]
        (some { accepted := 1, rejected := [{ eventId := "b", errorKind := "schema" }] })] := by
  decide +kernel

theorem halfDelivered_accountable :
    Accountable .ascii {} "siem" halfAccepting [storedEvent "a", storedEvent "b"]
      (.queued .empty) celeryMaxRetries := by
  refine ⟨?_, fun h => by cases h⟩
  intro a ha
  have hmem : a ∈ halfDelivered.delivery.trace := ha
  rw [halfDelivered_trace] at hmem
  simp only [List.mem_cons, List.not_mem_nil, or_false] at hmem
  rcases hmem with rfl | rfl
  · exact .inr ⟨rfl, rfl⟩
  · refine .inr ⟨by unfold accountsFor; decide +kernel, ?_⟩
    intro rej hrej
    obtain rfl := List.mem_singleton.1 hrej
    exact ⟨storedEvent "b", by simp, by decide +kernel⟩

theorem celery_loses_nothing_half_accepted :
    halfDelivered.Accounts .ascii "siem" (storedEvent "a") ∧
      halfDelivered.Accounts .ascii "siem" (storedEvent "b") := by
  have hall := celery_loses_nothing .ascii {} halfAccepting "siem"
    [storedEvent "a", storedEvent "b"] .empty storedEvents_identified halfDelivered
    (.tail .refl ⟨celeryMaxRetries, rfl, halfDelivered_accountable, rfl⟩) (by decide +kernel)
  exact ⟨hall _ (by simp), hall _ (by simp)⟩

/-- The destination answers 429 for ever, and has no retries of its own. -/
def busyForever : Environment :=
  { Environment.calm
      (some { organizationId := some 1, delivery := { retryEnabled := false } }) with
    send := fun _ _ => .result { accepted := 0, retryable := true } }

def busyTrace : List Action :=
  [.dispatched (some { organizationId := some 1, delivery := { retryEnabled := false } })
      [storedEvent "a"],
    .sent [storedEvent "a"] (some { accepted := 0, retryable := true })]

theorem busy_dispatch (d : DeliveryState) :
    dispatchBatchToDestination .ascii {} busyForever "siem" [storedEvent "a"] d =
      .raised .transient { d with trace := d.trace ++ [busyTrace[0]] ++ [busyTrace[1]]
                                  clock := d.clock + 8 } :=
  rfl

def OnlyOffered (s : LaneState) : Prop :=
  s.delivery.trace ⊆ busyTrace ∧ s.delivery.dlq = .empty ∧ s.dlqQueue = []

theorem OnlyOffered.deliver (h : OnlyOffered s) (left : Nat) :
    OnlyOffered (celeryDeliver .ascii {} busyForever "siem" [storedEvent "a"] s left) := by
  rw [celeryDeliver_retryable left (busy_dispatch s.delivery) rfl]
  refine ⟨?_, h.2⟩
  exact List.append_subset.2 ⟨List.append_subset.2 ⟨h.1, by simp⟩, by simp⟩

theorem busy_retries (n : Nat) (hn : n ≤ celeryMaxRetries) :
    ∃ s, (celeryLane .ascii {} busyForever "siem" [storedEvent "a"]).Reaches (fun _ _ => True)
      (.queued .empty) s ∧ OnlyOffered s ∧ s.retriesLeft = some (celeryMaxRetries - n) := by
  induction n with
  | zero => exact ⟨_, .refl, ⟨by simp [LaneState.queued], rfl, rfl⟩, rfl⟩
  | succ n ih =>
    obtain ⟨s, hreach, honly, hleft⟩ := ih (by omega)
    refine ⟨_, hreach.step _ hleft trivial, honly.deliver _, ?_⟩
    have hpos : 0 < celeryMaxRetries - n := by omega
    change (celeryDeliver _ _ _ _ _ _ _).retriesLeft = _
    rw [celeryDeliver_retryable _ (busy_dispatch s.delivery) rfl, if_pos hpos]
    rfl

theorem OnlyOffered.forgotten (h : OnlyOffered s) :
    ¬ s.Accounts .ascii "siem" (storedEvent "a") := by
  obtain ⟨htrace, hdlq, hqueue⟩ := h
  rintro ((⟨chunk, r, hsent, -, -, hacc⟩ | ⟨i, row, hget, -⟩) | ⟨m, hm, -⟩)
  · have hmem := htrace hsent
    simp only [busyTrace, List.mem_cons, List.not_mem_nil, or_false, reduceCtorEq, false_or,
      Action.sent.injEq, Option.some.injEq] at hmem
    obtain ⟨rfl, rfl⟩ := hmem
    unfold accountsFor at hacc
    exact absurd hacc (by decide +kernel)
  · rw [hdlq] at hget
    cases hget
  · rw [hqueue] at hm
    cases hm

/-- After ten retries against a busy destination the event is nowhere. -/
theorem last_retry_loses_batch :
    ¬ LaneLosesNothing .ascii {} busyForever "siem" [storedEvent "a"] .empty := by
  intro h
  obtain ⟨s, hreach, honly, hleft⟩ := busy_retries celeryMaxRetries le_rfl
  refine (honly.deliver 0).forgotten (h _ (hreach.step _ hleft trivial) ?_ _ (by simp))
  change (celeryDeliver _ _ _ _ _ _ _).retriesLeft = _
  rw [celeryDeliver_retryable _ (busy_dispatch s.delivery) rfl]
  rfl

end CentralOps
