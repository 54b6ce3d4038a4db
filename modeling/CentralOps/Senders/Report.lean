import CentralOps.Delivery.Dispatch

namespace CentralOps
set_option autoImplicit true

/-- What `aiohttp` gives of a response: `json` is `none` when `resp.json()` raises, `text` when
`resp.text()` does. -/
structure HttpResponse where
  status : Nat
  summary : Option String := none
  json : Option Json := none
  text : Option String := none

/-- The answer to one request; the errors are the two classes every sender catches. -/
inductive HttpReply where
  | response (r : HttpResponse)
  | connectionError (detail : String)

def HttpResponse.ok2xx (r : HttpResponse) : Bool := decide (200 ≤ r.status ∧ r.status < 300)

def HttpResponse.unauthorized (r : HttpResponse) : Bool :=
  decide (r.status = 401 ∨ r.status = 403)

/-- `body = {}` where the body is not JSON. -/
def HttpResponse.body (r : HttpResponse) : Json := r.json.getD (.obj [])

/-- `f"HTTP {status}"`. -/
def HttpResponse.label (r : HttpResponse) : String := "HTTP " ++ toString r.status

def HttpResponse.errorKind (r : HttpResponse) : String :=
  if r.unauthorized then "auth" else "schema_rejected"

inductive EventOutcome where
  | accepted
  | retryable
  | rejected (reason errorKind : String)
  deriving DecidableEq

inductive SendReport where
  | perEvent (outcomes : List EventOutcome)
  | wrote (rows : Nat)
  deriving DecidableEq

section Tally
variable (rt : Runtime)

/-- `_event_id(ev)`, with the placeholder for an absent id. -/
def senderEventId (ev : Obj) : String := (envelopeEventId rt ev).getD "?"

structure Tally where
  accepted : Nat := 0
  rejected : List RejectedEvent := []
  anyRetryable : Bool := false

def Tally.add (t : Tally) : Obj × EventOutcome → Tally
  | (_, .accepted) => { t with accepted := t.accepted + 1 }
  | (_, .retryable) => { t with anyRetryable := true }
  | (ev, .rejected reason errorKind) =>
    { t with rejected := t.rejected ++
        [{ eventId := senderEventId rt ev, errorKind := errorKind, reason := reason }] }

def tally (batch : List Obj) (outcomes : List EventOutcome) : Tally :=
  (batch.zip outcomes).foldl (Tally.add rt) {}

def Tally.result (t : Tally) : DeliveryResult :=
  if t.anyRetryable then { accepted := t.accepted, retryable := true }
  else { accepted := t.accepted, rejected := t.rejected }

/-- As `kafka` returns it, with the rejections in any case. -/
def Tally.fullResult (t : Tally) : DeliveryResult :=
  { accepted := t.accepted, rejected := t.rejected, retryable := t.anyRetryable }

def SendReport.result (batch : List Obj) : SendReport → DeliveryResult
  | .perEvent outcomes => (tally rt batch outcomes).result
  | .wrote rows => { accepted := rows }

/-- Every event is retried, or is accepted or rejected, each rejection being of a position of its
own. -/
def AccountsForAll (batch : List Obj) (r : DeliveryResult) : Prop :=
  r.retryable = true ∨ r.accepted + r.rejected.length = batch.length ∧
    ∃ positions : List Nat, positions.Nodup ∧ List.Forall₂ (fun rej p =>
      ∃ ev, batch[p]? = some ev ∧ rej.eventId = senderEventId rt ev) r.rejected positions

def EventOutcome.isRejected : EventOutcome → Bool
  | .rejected _ _ => true
  | _ => false

def rejections : List Obj → List EventOutcome → List RejectedEvent
  | ev :: batch, .rejected reason errorKind :: outcomes =>
    { eventId := senderEventId rt ev, errorKind := errorKind, reason := reason } ::
      rejections batch outcomes
  | _ :: batch, _ :: outcomes => rejections batch outcomes
  | _, _ => []

/-- The positions that are rejected, counted from `k`. -/
def rejectedPositions (k : Nat) : List EventOutcome → List Nat
  | [] => []
  | .rejected _ _ :: outcomes => k :: rejectedPositions (k + 1) outcomes
  | _ :: outcomes => rejectedPositions (k + 1) outcomes

end Tally

section Lemmas
variable {rt : Runtime}

theorem tally_foldl (batch : List Obj) (outcomes : List EventOutcome)
    (h : batch.length = outcomes.length) (t : Tally) :
    (batch.zip outcomes).foldl (Tally.add rt) t =
      { accepted := t.accepted + outcomes.count .accepted
        rejected := t.rejected ++ rejections rt batch outcomes
        anyRetryable := t.anyRetryable || outcomes.contains .retryable } := by
  induction outcomes generalizing batch t with
  | nil =>
    rw [List.length_nil, List.length_eq_zero_iff] at h
    simp [h, rejections]
  | cons o outcomes ih =>
    cases batch with
    | nil => cases h
    | cons ev batch =>
      have hlen : batch.length = outcomes.length := by simpa using h
      rw [List.zip_cons_cons, List.foldl_cons, ih batch hlen]
      cases o with
      | accepted => simp [Tally.add, rejections, Nat.add_comm, Nat.add_left_comm]
      | retryable => simp [Tally.add, rejections]
      | rejected reason errorKind => simp [Tally.add, rejections]

theorem tally_eq (batch : List Obj) (outcomes : List EventOutcome)
    (h : batch.length = outcomes.length) :
    tally rt batch outcomes =
      { accepted := outcomes.count .accepted
        rejected := rejections rt batch outcomes
        anyRetryable := outcomes.contains .retryable } := by
  rw [tally, tally_foldl batch outcomes h]
  simp

theorem counts_add_up (rt : Runtime) (batch : List Obj) (outcomes : List EventOutcome)
    (h : batch.length = outcomes.length) :
    outcomes.count .accepted + (rejections rt batch outcomes).length +
      outcomes.count .retryable = batch.length := by
  induction outcomes generalizing batch with
  | nil =>
    rw [List.length_nil, List.length_eq_zero_iff] at h
    simp [h, rejections]
  | cons o outcomes ih =>
    cases batch with
    | nil => cases h
    | cons ev batch =>
      have hlen : batch.length = outcomes.length := by simpa using h
      have hcount := ih batch hlen
      cases o with
      | accepted => simp [rejections]; omega
      | retryable => simp [rejections]; omega
      | rejected reason errorKind => simp [rejections]; omega

theorem le_of_mem_rejectedPositions (outcomes : List EventOutcome) (k : Nat)
    (h : p ∈ rejectedPositions k outcomes) : k ≤ p := by
  induction outcomes generalizing k with
  | nil => cases h
  | cons o outcomes ih =>
    cases o with
    | accepted => exact Nat.le_of_succ_le (ih (k + 1) h)
    | retryable => exact Nat.le_of_succ_le (ih (k + 1) h)
    | rejected reason errorKind =>
      rcases List.mem_cons.1 h with rfl | h
      · exact le_rfl
      · exact Nat.le_of_succ_le (ih (k + 1) h)

theorem rejectedPositions_nodup (outcomes : List EventOutcome) (k : Nat) :
    (rejectedPositions k outcomes).Nodup := by
  induction outcomes generalizing k with
  | nil => exact List.nodup_nil
  | cons o outcomes ih =>
    cases o with
    | accepted => exact ih (k + 1)
    | retryable => exact ih (k + 1)
    | rejected reason errorKind =>
      refine List.nodup_cons.2 ⟨?_, ih (k + 1)⟩
      intro hmem
      have := le_of_mem_rejectedPositions outcomes (k + 1) hmem
      omega

theorem rejections_at (before batch : List Obj) (outcomes : List EventOutcome)
    (h : batch.length = outcomes.length) :
    List.Forall₂ (fun rej p => ∃ ev, (before ++ batch)[p]? = some ev ∧
        rej.eventId = senderEventId rt ev)
      (rejections rt batch outcomes) (rejectedPositions before.length outcomes) := by
  induction outcomes generalizing before batch with
  | nil =>
    rw [List.length_nil, List.length_eq_zero_iff] at h
    subst h
    exact .nil
  | cons o outcomes ih =>
    cases batch with
    | nil => cases h
    | cons ev batch =>
      have hlen : batch.length = outcomes.length := by simpa using h
      have hrest := ih (before ++ [ev]) batch hlen
      rw [List.append_assoc, List.singleton_append, List.length_append] at hrest
      cases o with
      | accepted => exact hrest
      | retryable => exact hrest
      | rejected reason errorKind => exact .cons ⟨ev, by simp, rfl⟩ hrest

theorem accounts_without_retry (batch : List Obj) (outcomes : List EventOutcome)
    (h : batch.length = outcomes.length) (hno : outcomes.contains .retryable = false) :
    outcomes.count .accepted + (rejections rt batch outcomes).length = batch.length ∧
      ∃ positions : List Nat, positions.Nodup ∧ List.Forall₂ (fun rej p =>
        ∃ ev, batch[p]? = some ev ∧ rej.eventId = senderEventId rt ev)
        (rejections rt batch outcomes) positions := by
  have hzero : outcomes.count .retryable = 0 := by
    rw [List.count_eq_zero]
    simpa using hno
  have hsum := counts_add_up rt batch outcomes h
  exact ⟨by omega, _, rejectedPositions_nodup outcomes 0, rejections_at [] batch outcomes h⟩

theorem tally_result_accounts (batch : List Obj) (outcomes : List EventOutcome)
    (h : batch.length = outcomes.length) :
    AccountsForAll rt batch (tally rt batch outcomes).result := by
  rw [tally_eq batch outcomes h]
  cases hretry : outcomes.contains .retryable with
  | true => exact .inl rfl
  | false => exact .inr (accounts_without_retry batch outcomes h hretry)

theorem tally_fullResult_accounts (batch : List Obj) (outcomes : List EventOutcome)
    (h : batch.length = outcomes.length) :
    AccountsForAll rt batch (tally rt batch outcomes).fullResult := by
  rw [tally_eq batch outcomes h]
  cases hretry : outcomes.contains .retryable with
  | true => exact .inl rfl
  | false => exact .inr (accounts_without_retry batch outcomes h hretry)

end Lemmas

end CentralOps
