import CentralOps.Normalize.Envelope
import CentralOps.Senders.ElasticBulk
import CentralOps.Delivery.Drain

namespace CentralOps
set_option autoImplicit true

inductive BulkAction where
  | create (index id : String)
  | index (index : String)
  deriving DecidableEq

def formatBulkAction (rt : Runtime) (envelope : Obj) (index : String) : BulkAction :=
  match envelopeEventId rt envelope with
  | some id => .create index id
  | none => .index index

abbrev Cluster := Dict (String × String) Obj

/-- The status of a `_bulk` item: `create` fails with 409 where the id exists, and `index`
without an id stores the document under a generated one. -/
def Cluster.perform (autoId : Cluster → String) (cluster : Cluster) (doc : Obj) :
    BulkAction → Int × Cluster
  | .create index id =>
    if (cluster.get? (index, id)).isSome then (409, cluster)
    else (201, cluster.set (index, id) doc)
  | .index index => (201, cluster.set (index, autoId cluster) doc)

section Sinks
variable (rt : Runtime) (env : Environment) (autoId : Cluster → String) (first second : Obj)

def ElasticTellsApart (index : String) : Prop :=
  ∀ cluster : Cluster,
    (∀ id, envelopeEventId rt second = some id → cluster.get? (index, id) = none) →
    let sent := (cluster.perform autoId first (formatBulkAction rt first index)).2
    (sent.perform autoId second (formatBulkAction rt second index)).1 ≠ 409

def rejectionOf (envelope : Obj) (errorKind reason : String) : RejectedEvent :=
  { eventId := (envelopeEventId rt envelope).getD "?", errorKind := errorKind, reason := reason }

/-- Where the second event has no row yet, its rejection leaves one that holds it although the
first has been rejected before. -/
def DlqTellsApart (destId : String) (destOrg : Option Int) (errorKind reason : String) : Prop :=
  ∀ dlq : Dict String DeadLetter,
    AllRows (fun r => ¬ (r.destinationId = destId ∧
      r.eventId = (rejectionOf rt second errorKind reason).eventId)) dlq →
    let parked := storeRejected rt env destId destOrg [rejectionOf rt first errorKind reason]
      [first] dlq
    ∃ i row, (storeRejected rt env destId destOrg [rejectionOf rt second errorKind reason]
      [second] parked).get? i = some row ∧ row.payload = .stored second

end Sinks

/-- The message id, when `compute_event_id` uses it. -/
def usedMsgId (vendorMsgId : Option String) : Option String := vendorMsgId.filter (· ≠ "")

/-- No message id is shared, none is spelled like the other event's digest, and without
message ids the payloads differ. -/
def IdentitiesApart (rt : EnvelopeRuntime) (raw₁ raw₂ : Obj) (msg₁ msg₂ : Option String) : Prop :=
  match usedMsgId msg₁, usedMsgId msg₂ with
  | some id₁, some id₂ => id₁ ≠ id₂
  | some id₁, none => id₁ ≠ contentEventId rt raw₂
  | none, some id₂ => contentEventId rt raw₁ ≠ id₂
  | none, none => rt.canonical (.obj raw₁) ≠ rt.canonical (.obj raw₂)

section Proofs
variable {rt : EnvelopeRuntime} {env : Environment} {autoId : Cluster → String}

theorem computeEventId_eq (raw : Obj) (msg : Option String) :
    computeEventId rt raw msg = (usedMsgId msg).getD (contentEventId rt raw) := by
  cases msg with
  | none => rfl
  | some id =>
    by_cases h : id = ""
    · simp [computeEventId, usedMsgId, Option.filter_some, h]
    · simp [computeEventId, usedMsgId, Option.filter_some, h]

theorem envelopeEventId_buildEnvelope (raw normalized : Obj) (ctx : EnvelopeContext)
    (msg : Option String) (at_ : String) :
    envelopeEventId rt.toRuntime (buildEnvelope rt raw normalized ctx msg at_) =
      some (computeEventId rt raw msg) := by
  have hid : (centralopsBlock rt raw normalized ctx msg at_).getN "event_id" =
      .str (computeEventId rt raw msg) := rfl
  have hne : computeEventId rt raw msg ≠ "" := computeEventId_ne_empty
  rw [envelopeEventId, eventLabels_buildEnvelope, hid]
  simp [Json.truthy, hne, Runtime.str]

theorem computeEventId_ne_iff {raw₁ raw₂ : Obj} {msg₁ msg₂ : Option String}
    (hsha : contentEventId rt raw₁ = contentEventId rt raw₂ →
      rt.canonical (.obj raw₁) = rt.canonical (.obj raw₂)) :
    computeEventId rt raw₁ msg₁ ≠ computeEventId rt raw₂ msg₂ ↔
      IdentitiesApart rt raw₁ raw₂ msg₁ msg₂ := by
  rw [computeEventId_eq, computeEventId_eq, IdentitiesApart]
  cases usedMsgId msg₁ with
  | some id₁ =>
    cases usedMsgId msg₂ with
    | some id₂ => exact Iff.rfl
    | none => exact Iff.rfl
  | none =>
    cases usedMsgId msg₂ with
    | some id₂ => exact Iff.rfl
    | none =>
      have hback : rt.canonical (.obj raw₁) = rt.canonical (.obj raw₂) →
          contentEventId rt raw₁ = contentEventId rt raw₂ := by
        intro h
        rw [contentEventId, contentEventId, h]
      exact not_congr ⟨hsha, hback⟩

variable {first second : Obj} {id₁ id₂ : String}

theorem elastic_tells_apart_iff (h₁ : envelopeEventId rt.toRuntime first = some id₁)
    (h₂ : envelopeEventId rt.toRuntime second = some id₂) (index : String) :
    ElasticTellsApart rt.toRuntime autoId first second index ↔ id₁ ≠ id₂ := by
  have ha₁ : formatBulkAction rt.toRuntime first index = .create index id₁ := by
    simp [formatBulkAction, h₁]
  have ha₂ : formatBulkAction rt.toRuntime second index = .create index id₂ := by
    simp [formatBulkAction, h₂]
  constructor
  · intro h heq
    subst heq
    have hempty := h .empty (fun id _ => rfl)
    rw [ha₁, ha₂] at hempty
    simp [Cluster.perform] at hempty
  · intro hne cluster hfree
    have hnone := hfree id₂ h₂
    have hkey : (index, id₂) ≠ (index, id₁) := by
      intro he
      exact hne (Prod.mk.inj he).2.symm
    have hsent : ((cluster.perform autoId first (.create index id₁)).2).get? (index, id₂) =
        none := by
      simp only [Cluster.perform]
      split
      · exact hnone
      · rw [Dict.get?_set_ne cluster hkey, hnone]
    simp only
    rw [ha₁, ha₂]
    simp [Cluster.perform] at hsent ⊢
    simp [hsent]

theorem buildEventMap_singleton (rt : Runtime) (e : Obj) (id : String)
    (h : envelopeEventId rt e = some id) : (buildEventMap rt [e]).get? id = some e := by
  simp [buildEventMap, h]

theorem storeRejected_singleton (rt : Runtime) (env : Environment) (destId : String)
    (destOrg : Option Int) {e : Obj} {id : String} (h : envelopeEventId rt e = some id)
    (errorKind reason : String) (dlq : Dict String DeadLetter) :
    ∃ row, storeRejected rt env destId destOrg [rejectionOf rt e errorKind reason] [e] dlq =
        upsertDeadLetter env dlq row ∧
      row.destinationId = destId ∧ row.eventId = id ∧ row.payload = .stored e := by
  refine ⟨_, rfl, rfl, ?_, ?_⟩
  · simp [rejectedRow, rejectionOf, h]
  · simp [rejectedRow, rejectionOf, h, buildEventMap_singleton rt e id h]

theorem upsert_row_of_clash {dlq : Dict String DeadLetter} {w : DeadLetter}
    (hj : dlq.get? j = some taken) (hclash : w.clash taken = true)
    (h : (upsertDeadLetter env dlq w).get? i = some r) :
    ∃ r₀, dlq.get? i = some r₀ ∧ SameRow r₀ r := by
  have hany : dlq.entries.any (fun p => w.clash p.2) = true :=
    List.any_eq_true.2 ⟨(j, taken), dlq.mem_entries_iff.2 hj, hclash⟩
  rw [upsertDeadLetter, if_pos hany, Dict.get?_mapEntries, Option.map_eq_some_iff] at h
  obtain ⟨r₀, hget, rfl⟩ := h
  exact ⟨r₀, hget, retouch_same w r₀⟩

theorem dlq_tells_apart_iff (h₁ : envelopeEventId rt.toRuntime first = some id₁)
    (h₂ : envelopeEventId rt.toRuntime second = some id₂) (hne : first ≠ second)
    (destId : String) (destOrg : Option Int) (errorKind reason : String) :
    DlqTellsApart rt.toRuntime env first second destId destOrg errorKind reason ↔
      id₁ ≠ id₂ := by
  have hid : (rejectionOf rt.toRuntime second errorKind reason).eventId = id₂ := by
    simp [rejectionOf, h₂]
  constructor
  · intro h heq
    subst heq
    -- a table without rows: the only row is the one of the first event
    obtain ⟨i, row, hget, hpay⟩ := h .empty (fun i r hi => by simp at hi)
    obtain ⟨row₁, he₁, hd₁, hi₁, hp₁⟩ :=
      storeRejected_singleton rt.toRuntime env destId destOrg h₁ errorKind reason .empty
    obtain ⟨row₂, he₂, hd₂, hi₂, hp₂⟩ :=
      storeRejected_singleton rt.toRuntime env destId destOrg h₂ errorKind reason
        (upsertDeadLetter env .empty row₁)
    rw [he₁, he₂] at hget
    have hone : ∀ j r, (upsertDeadLetter env .empty row₁).get? j = some r → r = row₁ := by
      intro j r hj
      rcases upsert_row hj with ⟨r₀, hr₀, -⟩ | hr
      · simp at hr₀
      · exact hr
    obtain ⟨j, r, hj, -, -⟩ := upsert_present env .empty row₁
    have hclash : row₂.clash r = true := by
      rw [hone j r hj]
      exact clash_iff.2 ⟨hd₁.trans hd₂.symm, hi₁.trans hi₂.symm⟩
    obtain ⟨r₀, hr₀, hsame⟩ := upsert_row_of_clash hj hclash hget
    rw [hone i r₀ hr₀] at hsame
    have hstored : JsonText.stored first = .stored second :=
      hp₁.symm.trans (hsame.payload.symm.trans hpay)
    exact hne (JsonText.stored.inj hstored)
  · intro hids dlq hfree
    obtain ⟨row₁, he₁, hd₁, hi₁, -⟩ :=
      storeRejected_singleton rt.toRuntime env destId destOrg h₁ errorKind reason dlq
    obtain ⟨row₂, he₂, hd₂, hi₂, hp₂⟩ :=
      storeRejected_singleton rt.toRuntime env destId destOrg h₂ errorKind reason
        (upsertDeadLetter env dlq row₁)
    simp only
    rw [he₁, he₂]
    obtain ⟨i, r, hget, -, hown⟩ := upsert_present env (upsertDeadLetter env dlq row₁) row₂
    have hr : r = row₂ := by
      apply hown
      intro j r' hj
      rw [Bool.eq_false_iff]
      intro hclash
      obtain ⟨hcd, hci⟩ := clash_iff.1 hclash
      rcases upsert_row hj with ⟨r₀, hr₀, hsame⟩ | rfl
      · apply hfree j r₀ hr₀
        rw [hid, ← hsame.destinationId, ← hsame.eventId]
        exact ⟨hcd.trans hd₂, hci.trans hi₂⟩
      · exact hids (hi₁.symm.trans (hci.trans hi₂))
    exact ⟨i, r, hget, by rw [hr, hp₂]⟩

end Proofs

section Tenants
variable (rt : EnvelopeRuntime) (env : Environment) (autoId : Cluster → String)
  (raw₁ raw₂ normalized₁ normalized₂ : Obj) (ctx₁ ctx₂ : EnvelopeContext)
  (msg₁ msg₂ : Option String) (at₁ at₂ index destId errorKind reason : String)
  (destOrg : Option Int)

/-- Neither sink of the destination takes the second event for the first. -/
def SinksTellApart (first second : Obj) : Prop :=
  ElasticTellsApart rt.toRuntime autoId first second index ∧
    DlqTellsApart rt.toRuntime env first second destId destOrg errorKind reason

theorem buildEnvelope_ne (hint : ctx₁.integrationId ≠ ctx₂.integrationId) :
    buildEnvelope rt raw₁ normalized₁ ctx₁ msg₁ at₁ ≠
      buildEnvelope rt raw₂ normalized₂ ctx₂ msg₂ at₂ := by
  intro h
  have hlabel := congrArg (fun e => (eventLabels e).getN "integration_id") h
  exact hint (Json.int.inj hlabel)

theorem sinks_tell_apart_iff (hint : ctx₁.integrationId ≠ ctx₂.integrationId)
    (hsha : contentEventId rt raw₁ = contentEventId rt raw₂ →
      rt.canonical (.obj raw₁) = rt.canonical (.obj raw₂)) :
    SinksTellApart rt env autoId index destId errorKind reason destOrg
        (buildEnvelope rt raw₁ normalized₁ ctx₁ msg₁ at₁)
        (buildEnvelope rt raw₂ normalized₂ ctx₂ msg₂ at₂) ↔
      IdentitiesApart rt raw₁ raw₂ msg₁ msg₂ := by
  have h₁ : envelopeEventId rt.toRuntime (buildEnvelope rt raw₁ normalized₁ ctx₁ msg₁ at₁) =
      some (computeEventId rt raw₁ msg₁) := envelopeEventId_buildEnvelope _ _ _ _ _
  have h₂ : envelopeEventId rt.toRuntime (buildEnvelope rt raw₂ normalized₂ ctx₂ msg₂ at₂) =
      some (computeEventId rt raw₂ msg₂) := envelopeEventId_buildEnvelope _ _ _ _ _
  have hne := buildEnvelope_ne rt raw₁ raw₂ normalized₁ normalized₂ ctx₁ ctx₂ msg₁ msg₂ at₁ at₂
    hint
  rw [SinksTellApart, elastic_tells_apart_iff h₁ h₂, dlq_tells_apart_iff h₁ h₂ hne, and_self]
  exact computeEventId_ne_iff hsha

end Tenants

/-- The context of an alert of a Sophos integration. -/
def sophosContext (integrationId organizationId : Int) : EnvelopeContext where
  vendor := "sophos"
  integrationId := integrationId
  customerId := some organizationId
  stream := "alerts"
  eventType := "sophos.alert"
  mappingVersionId := some "v1"
  collectorHost := "worker"
  organizationId := some organizationId

theorem sinks_tell_apart_own_ids :
    SinksTellApart .ascii (.calm none) (fun _ => "") "events" "wazuh-default" "schema_rejected"
      "" none
      (buildEnvelope .ascii [] [] (sophosContext 1 10) (some "a-1") "t")
      (buildEnvelope .ascii [] [] (sophosContext 2 20) (some "b-1") "t") := by
  have hapart : IdentitiesApart .ascii [] [] (some "a-1") (some "b-1") := by
    show "a-1" ≠ "b-1"
    decide
  exact (sinks_tell_apart_iff .ascii (.calm none) (fun _ => "") [] [] [] [] (sophosContext 1 10)
    (sophosContext 2 20) (some "a-1") (some "b-1") "t" "t" "events" "wazuh-default"
    "schema_rejected" "" none (by decide) (fun _ => rfl)).2 hapart

/-- Two integrations whose vendors number their alerts from 1: the second alert is answered
with 409, which counts as accepted, and its rejection only updates the row of the first. -/
theorem shared_vendor_id_is_taken_for_duplicate :
    ¬ SinksTellApart .ascii (.calm none) (fun _ => "") "events" "wazuh-default"
        "schema_rejected" "" none
        (buildEnvelope .ascii [("user", .str "ana")] [] (sophosContext 1 10) (some "1") "t")
        (buildEnvelope .ascii [("user", .str "bob")] [] (sophosContext 2 20) (some "1") "t") ∧
      acceptedStatus (.int 409) = true := by
  have hid : ∀ raw ctx, envelopeEventId EnvelopeRuntime.ascii.toRuntime
      (buildEnvelope .ascii raw [] ctx (some "1") "t") = some "1" :=
    fun raw ctx => envelopeEventId_buildEnvelope raw [] ctx (some "1") "t"
  refine ⟨fun h => ?_, by decide⟩
  exact (elastic_tells_apart_iff (hid _ _) (hid _ _) "events").1 h.1 rfl

end CentralOps
