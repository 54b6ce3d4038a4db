import Mathlib.Algebra.Order.Ring.Nat
import Mathlib.Algebra.Order.BigOperators.Group.List
import CentralOps.Lib.Proc
import CentralOps.Pipeline.Store

namespace CentralOps
set_option autoImplicit true

structure RejectedEvent where
  eventId : String
  errorKind : String
  reason : String := ""
  deriving DecidableEq

structure DeliveryResult where
  accepted : Nat
  rejected : List RejectedEvent := []
  retryable : Bool := false
  deriving DecidableEq

structure DeliveryPolicy where
  shadow : Bool := false
  maxItems : Nat := 500
  maxBytes : Nat := 1048576
  retryEnabled : Bool := true
  maxRetries : Nat := 3
  groupBy : List String := []
  maxGroups : Nat := 1000
  deriving DecidableEq

/-- `_load_destination_config`: only an enabled destination has one. -/
structure DestinationConfig where
  kind : String := ""
  organizationId : Option Int
  delivery : DeliveryPolicy := {}
  deriving DecidableEq

/-- A row of the dead-letter table; its id is the key. -/
structure DeadLetter where
  destinationId : String
  eventId : String
  organizationId : Option Int
  errorKind : String
  errorDetail : String
  payload : JsonText Obj

/-- What a run does that can be seen from outside: the batch a dispatch starts with and the
configuration it finds, a call of `send_batch` with its answer (`none` when it does not
return one), a batch handed to `persist_batch_dlq` and whether it was written. -/
inductive Action where
  | dispatched (dest : Option DestinationConfig) (batch : List Obj)
  | sent (chunk : List Obj) (answer : Option DeliveryResult)
  | parked (errorKind : String) (written : Bool)
  deriving DecidableEq

/-- The dead-letter table, what was done so far, and the number of steps taken. -/
structure DeliveryState where
  dlq : Dict String DeadLetter := .empty
  trace : List Action := []
  clock : Nat := 0

def DeliveryState.log (s : DeliveryState) (a : Action) : DeliveryState :=
  { s with trace := s.trace ++ [a] }

inductive Reply where
  | ok | raises | disconnects | crash

inductive SendReply where
  | result (r : DeliveryResult)
  | timeout
  | raises
  | disconnects
  | crash

/-- The exceptions the lanes tell apart; `connection` is `OSError` and its subclasses. -/
inductive DispatchError where
  | breakerOpen | transient | connection | other
  deriving DecidableEq

/-- What the outside answers at each step. A generated id is never one that is in use. -/
structure Environment where
  call : Nat → Reply
  config : Nat → Option DestinationConfig
  breakerOpen : Nat → Bool
  elapsed : Nat → Bool
  send : Nat → List Obj → SendReply
  uuid : List String → String
  uuid_fresh : ∀ used, uuid used ∉ used
  /-- An exception as an f-string shows it. -/
  describe : DispatchError → String

/-- Longer than every id in use. -/
def freshId (used : List String) : String :=
  String.ofList (List.replicate ((used.map String.length).sum + 1) '0')

theorem freshId_notMem (used : List String) : freshId used ∉ used := by
  intro h
  have hle : (freshId used).length ≤ (used.map String.length).sum :=
    List.single_le_sum (fun n _ => Nat.zero_le n) _ (List.mem_map_of_mem h)
  have hlen : (freshId used).length = (used.map String.length).sum + 1 := by
    simp [freshId]
  omega

/-- Every call works and every sender accepts all it is given. -/
def Environment.calm (dest : Option DestinationConfig) : Environment where
  call _ := .ok
  config _ := dest
  breakerOpen _ := false
  elapsed _ := false
  send _ chunk := .result { accepted := chunk.length }
  uuid := freshId
  uuid_fresh := freshId_notMem
  describe _ := ""

abbrev Task := Proc DeliveryState DispatchError

section Effects
variable (env : Environment)

def step : Task Nat := fun s => .ok s.clock { s with clock := s.clock + 1 }

def record (a : Action) : Task Unit := Proc.modify (fun s => s.log a)

def external : Task Unit := do
  let n ← step
  match env.call n with
  | .ok => pure ()
  | .raises => Proc.raise .other
  | .disconnects => Proc.raise .connection
  | .crash => Proc.crash

def tryWrite (f : DeliveryState → DeliveryState) : Task Bool := do
  let n ← step
  match env.call n with
  | .ok => do
    Proc.modify f
    pure true
  | .raises | .disconnects => pure false
  | .crash => Proc.crash

def breakerCheck : Task Unit := do
  external env
  let n ← step
  if env.breakerOpen n then Proc.raise .breakerOpen else pure ()

/-- One call of `send_batch`; `none` is a timeout. -/
def sendBatch (chunk : List Obj) : Task (Option DeliveryResult) := do
  let n ← step
  match env.send n chunk with
  | .result r => do
    record (.sent chunk (some r))
    pure (some r)
  | .timeout => do
    record (.sent chunk none)
    pure none
  | .raises => do
    record (.sent chunk none)
    Proc.raise .other
  | .disconnects => do
    record (.sent chunk none)
    Proc.raise .connection
  | .crash => do
    record (.sent chunk none)
    Proc.crash

end Effects

section DeadLetters
variable (rt : Runtime) (env : Environment)

def envelopeEventId (envelope : Obj) : Option String :=
  let v := (eventLabels envelope).getN "event_id"
  if v.truthy then some (rt.str v) else none

def DeadLetter.clash (row r : DeadLetter) : Bool :=
  decide (r.destinationId = row.destinationId ∧ r.eventId = row.eventId)

/-- The stored row with the reason of the new one, where they are of one event. -/
def DeadLetter.retouch (row r : DeadLetter) : DeadLetter :=
  if row.clash r then { r with errorKind := row.errorKind, errorDetail := row.errorDetail } else r

/-- `INSERT`, or an update of the reason where `(destination_id, event_id)` exists. -/
def upsertDeadLetter (dlq : Dict String DeadLetter) (row : DeadLetter) : Dict String DeadLetter :=
  if dlq.entries.any (fun p => row.clash p.2) then dlq.mapEntries (fun _ => row.retouch)
  else dlq.set (env.uuid (dlq.entries.map Prod.fst)) row

def buildEventMap (batch : List Obj) : Dict String Obj :=
  batch.foldl (fun m e =>
    match envelopeEventId rt e with
    | some eid => m.set eid e
    | none => m) .empty

def rowOrg (envelope : Obj) (destOrg : Option Int) : Option Int :=
  match (eventLabels envelope).getN "organization_id" with
  | .int n => some n
  | .bool b => some (if b then 1 else 0)
  | _ => destOrg

def rejectedRow (destId : String) (destOrg : Option Int) (eventMap : Dict String Obj)
    (rej : RejectedEvent) : DeadLetter :=
  let envelope := (eventMap.get? rej.eventId).getD []
  { destinationId := destId
    eventId := rej.eventId
    organizationId := rowOrg envelope destOrg
    errorKind := rej.errorKind
    errorDetail := rej.reason
    payload := .stored envelope }

def storeRejected (destId : String) (destOrg : Option Int) (rejected : List RejectedEvent)
    (batch : List Obj) (dlq : Dict String DeadLetter) : Dict String DeadLetter :=
  (rejected.map (rejectedRow destId destOrg (buildEventMap rt batch))).foldl
    (upsertDeadLetter env) dlq

def persistRejectedToDlq (destId : String) (destOrg : Option Int)
    (rejected : List RejectedEvent) (batch : List Obj) : Task Bool :=
  if rejected.isEmpty then pure true
  else tryWrite env (fun s =>
    { s with dlq := storeRejected rt env destId destOrg rejected batch s.dlq })

def detalhePadrao : String := "lote inteiro para DLQ (sem detalhe por evento)"

def detalhePorKind (errorKind : String) : String :=
  if errorKind = "breaker_open" then
    "disjuntor aberto para este destino — o lote NÃO foi enviado. " ++
      "Corrija a causa das falhas anteriores e reprocesse."
  else if errorKind = "exhausted" then "esgotou as tentativas de reenvio ao destino"
  else if errorKind = "destination_missing" then
    "o destino não existe mais quando o lote foi despachado — nada foi enviado"
  else if errorKind = "cross_tenant_destination" then
    "bloqueio fail-closed: o destino é de outra organização — nada foi enviado"
  else if errorKind = "size" then
    "evento maior que o teto de transporte — NÃO foi enviado. Reduza o evento " ++
      "ou suba o teto, e reprocesse."
  else detalhePadrao

def batchRow (destId errorKind : String) (organizationId : Option Int)
    (errorDetail : Option String) (eventId : String) (envelope : Obj) : DeadLetter :=
  { destinationId := destId
    eventId := eventId
    organizationId := organizationId
    errorKind := errorKind
    errorDetail := (errorDetail.filter (fun d => d ≠ "")).getD (detalhePorKind errorKind)
    payload := .stored envelope }

def insertBatchRow (destId errorKind : String) (organizationId : Option Int)
    (errorDetail : Option String) (dlq : Dict String DeadLetter) (envelope : Obj) :
    Dict String DeadLetter :=
  let eventId := (envelopeEventId rt envelope).getD
    (env.uuid (dlq.entries.map (fun p => p.2.eventId)))
  upsertDeadLetter env dlq
    (batchRow destId errorKind organizationId errorDetail eventId envelope)

def storeBatch (batch : List Obj) (destId errorKind : String) (organizationId : Option Int)
    (errorDetail : Option String) (dlq : Dict String DeadLetter) : Dict String DeadLetter :=
  batch.foldl (insertBatchRow rt env destId errorKind organizationId errorDetail) dlq

def persistBatchDlq (batch : List Obj) (destId errorKind : String)
    (organizationId : Option Int) (errorDetail : Option String) : Task Bool :=
  if batch.isEmpty then pure true
  else do
    let written ← tryWrite env (fun s => { s with
      dlq := storeBatch rt env batch destId errorKind organizationId errorDetail s.dlq })
    record (.parked errorKind written)
    pure written

end DeadLetters

section Chunks
variable (rt : Runtime) (maxItems maxBytes : Nat)

/-- Sizes count only when there is a byte limit. -/
def eventBytes (ev : Obj) : Nat := if 0 < maxBytes then rt.dumpsSize (.obj ev) else 0

def chunkFull (cur : List Obj) (curBytes : Nat) (ev : Obj) : Bool :=
  !cur.isEmpty && (decide (maxItems ≤ cur.length) ||
    (decide (0 < maxBytes) && decide (maxBytes < curBytes + eventBytes rt maxBytes ev)))

def chunkLoop (cur : List Obj) (curBytes : Nat) : List Obj → List (List Obj)
  | [] => if cur.isEmpty then [] else [cur]
  | ev :: rest =>
    if chunkFull rt maxItems maxBytes cur curBytes ev then
      cur :: chunkLoop [ev] (eventBytes rt maxBytes ev) rest
    else chunkLoop (cur ++ [ev]) (curBytes + eventBytes rt maxBytes ev) rest

/-- At least one chunk, the empty one for an empty batch. -/
def chunkBatch (batch : List Obj) : List (List Obj) :=
  if batch.isEmpty then [[]]
  else
    let chunks := chunkLoop rt maxItems maxBytes [] 0 batch
    if chunks.isEmpty then [[]] else chunks

theorem chunkLoop_flatten (cur : List Obj) (curBytes : Nat) (batch : List Obj) :
    (chunkLoop rt maxItems maxBytes cur curBytes batch).flatten = cur ++ batch := by
  induction batch generalizing cur curBytes with
  | nil =>
    unfold chunkLoop
    split
    · next h => simp [List.isEmpty_iff.1 h]
    · simp
  | cons ev rest ih =>
    unfold chunkLoop
    split
    · rw [List.flatten_cons, ih, List.singleton_append]
    · rw [ih, List.append_assoc, List.singleton_append]

theorem chunkBatch_flatten (batch : List Obj) :
    (chunkBatch rt maxItems maxBytes batch).flatten = batch := by
  have h := chunkLoop_flatten rt maxItems maxBytes [] 0 batch
  unfold chunkBatch
  split
  · next he => simp [List.isEmpty_iff.1 he]
  · dsimp only
    split
    · next he =>
      rw [List.isEmpty_iff.1 he] at h
      simpa using h
    · simpa using h

end Chunks

section Aggregate
variable (rt : Runtime) (groupBy : List String)

def groupKey (envelope : Obj) : List String :=
  groupBy.map (fun k => rt.str (((eventLabels envelope).lookup k).getD (.str "")))

/-- `none` when there would be more than `maxGroups` groups. -/
def groupBatch (maxGroups : Nat) (groups : Dict (List String) (List Obj)) :
    List Obj → Option (Dict (List String) (List Obj))
  | [] => some groups
  | e :: rest =>
    let key := groupKey rt groupBy e
    if (groups.get? key).isNone && decide (maxGroups ≤ groups.entries.length) then none
    else groupBatch maxGroups (groups.push key e) rest

def metricEvent (key : List String) (first : Obj) (count : Nat) : Obj :=
  let group := (groupBy.zip key).foldl (fun o p => Assoc.set p.1 (Json.str p.2) o) []
  Assoc.set "_aggregate" (.obj [("count", .int count), ("group", .obj group)])
    (Assoc.set "_centralops" (.obj (eventLabels first)) first)

def groupEvent : List String × List Obj → List Obj
  | (_, []) => []
  | (_, [e]) => [e]
  | (key, e :: es) => [metricEvent groupBy key e (es.length + 1)]

def coalesce (batch : List Obj) (maxGroups : Nat) : List Obj × Nat × Nat :=
  if groupBy.isEmpty || batch.isEmpty then (batch, 0, 0)
  else
    match groupBatch rt groupBy maxGroups .empty batch with
    | none => (batch, 0, 0)
    | some groups =>
      (groups.entries.flatMap (groupEvent groupBy),
        (groups.entries.map (fun p => ((p.2.drop 1).map (fun e => rt.dumpsSize (.obj e))).sum)).sum,
        (groups.entries.map (fun p => p.2.length - 1)).sum)

end Aggregate

section Dispatch
variable (rt : Runtime) (settings : Settings) (env : Environment)

/-- `record_success_for_config`, when something was accepted. -/
def recordSuccess (r : DeliveryResult) : Task Unit :=
  if 0 < r.accepted then external env else pure ()

/-- What follows from the answer to one attempt: the result to return, or `none` to try again,
which the last attempt cannot. -/
def settleAttempt (destId : String) (destOrg : Option Int) (chunk : List Obj) (last : Bool) :
    Option DeliveryResult → Task (Option DeliveryResult)
  | none => do
    external env
    if last then Proc.raise .transient else pure none
  | some r =>
    if !r.rejected.isEmpty && !r.retryable then do
      let persisted ← persistRejectedToDlq rt env destId destOrg r.rejected chunk
      if !persisted then Proc.raise .transient
      else do
        recordSuccess env r
        pure (some r)
    else if r.retryable then do
      external env
      if 0 < r.accepted || !r.rejected.isEmpty then Proc.raise .transient
      else if last then Proc.raise .transient
      else pure none
    else do
      recordSuccess env r
      pure (some r)

/-- One turn of the retry loop. -/
def attemptChunk (destId : String) (destOrg : Option Int) (chunk : List Obj)
    (last isRetry : Bool) : Task (Option DeliveryResult) := do
  let n ← step
  if isRetry && env.elapsed n then Proc.raise .transient
  else do
    breakerCheck env
    let answer ← sendBatch env chunk
    settleAttempt rt env destId destOrg chunk last answer

/-- `_send_chunk_with_retry`, with the retries left. -/
def sendChunkWithRetry (destId : String) (destOrg : Option Int) (chunk : List Obj) :
    Nat → Bool → Task DeliveryResult
  | 0, isRetry => do
    match ← attemptChunk rt env destId destOrg chunk true isRetry with
    | some r => pure r
    | none => Proc.raise .transient
  | left + 1, isRetry => do
    match ← attemptChunk rt env destId destOrg chunk false isRetry with
    | some r => pure r
    | none => sendChunkWithRetry destId destOrg chunk left true

def sendChunks (destId : String) (destOrg : Option Int) (retries : Nat) :
    List (List Obj) → Task Unit
  | [] => pure ()
  | chunk :: rest => do
    let _ ← sendChunkWithRetry rt env destId destOrg chunk retries false
    sendChunks destId destOrg retries rest

/-- The batch is of another organisation than the destination's owner. -/
def crossTenant (cfg : DestinationConfig) (batch : List Obj) : Bool :=
  match cfg.organizationId, batchOrgId rt batch with
  | some destOrg, some batchOrg => decide (destOrg ≠ batchOrg)
  | _, _ => false

def aggregates (cfg : DestinationConfig) : Bool :=
  settings.reductionAggregateEnabled && settings.costMeteringEnabled &&
    !cfg.delivery.groupBy.isEmpty

def outgoing (cfg : DestinationConfig) (batch : List Obj) : List Obj :=
  if aggregates settings cfg then
    (coalesce rt cfg.delivery.groupBy batch cfg.delivery.maxGroups).1
  else batch

def chunksFor (cfg : DestinationConfig) (batch : List Obj) : List (List Obj) :=
  chunkBatch rt cfg.delivery.maxItems cfg.delivery.maxBytes (outgoing rt settings cfg batch)

def retriesOf (cfg : DestinationConfig) : Nat :=
  if cfg.delivery.retryEnabled then cfg.delivery.maxRetries else 0

def deliver (destId : String) (cfg : DestinationConfig) (batch : List Obj) : Task Unit := do
  external env
  if cfg.delivery.shadow then pure ()
  else do
    sendChunks rt env destId cfg.organizationId (retriesOf cfg) (chunksFor rt settings cfg batch)
    external env

def dispatchTo (destId : String) (batch : List Obj) : Option DestinationConfig → Task Unit
  | none => do
    let _ ← persistBatchDlq rt env batch destId "destination_missing" (batchOrgId rt batch) none
    pure ()
  | some cfg =>
    if crossTenant rt cfg batch then do
      let _ ← persistBatchDlq rt env batch destId "cross_tenant_destination"
        (batchOrgId rt batch) none
      pure ()
    else deliver rt settings env destId cfg batch

def loadDestinationConfig : Task (Option DestinationConfig) := do
  external env
  let n ← step
  pure (env.config n)

def dispatchBatchToDestination (destId : String) (batch : List Obj) : Task Unit := do
  let dest ← loadDestinationConfig env
  record (.dispatched dest batch)
  dispatchTo rt settings env destId batch dest

end Dispatch

/-! Rules for the effects, each for any invariant that the effects it lists keep. -/

/-- The number of steps taken does not enter the invariant. -/
def Timeless (I : DeliveryState → Prop) : Prop := ∀ s n, I s → I { s with clock := n }

section Rules
variable {rt : Runtime} {settings : Settings} {env : Environment}
  {I R : DeliveryState → Prop} {destId : String} {destOrg : Option Int}

theorem step_keeps (hI : Timeless I) : Proc.Keeps I step := fun s hs => hI s _ hs

theorem external_keeps (hI : Timeless I) : Proc.Keeps I (external env) := by
  apply Proc.Keeps.bind (step_keeps hI)
  intro n
  cases env.call n with
  | ok => exact Proc.Keeps.pure ()
  | raises => exact Proc.Keeps.raise _
  | disconnects => exact Proc.Keeps.raise _
  | crash => exact Proc.Keeps.crash

theorem recordSuccess_keeps (hI : Timeless I) (r : DeliveryResult) :
    Proc.Keeps I (recordSuccess env r) :=
  Proc.Keeps.ite (external_keeps hI) (Proc.Keeps.pure ())

theorem tryWrite_spec {f : DeliveryState → DeliveryState} {Q : Bool → DeliveryState → Prop}
    (hI : Timeless I) (hok : ∀ s, I s → Q true (f s)) (hfail : ∀ s, I s → Q false s) :
    Proc.Spec I (tryWrite env f) Q I := by
  apply Proc.Spec.bind (step_keeps hI)
  intro n
  cases env.call n with
  | ok =>
    exact Proc.Spec.bind (Proc.Spec.modify (Q := fun _ => Q true) hok)
      (fun _ => Proc.Spec.pure (fun _ h => h))
  | raises => exact Proc.Spec.pure hfail
  | disconnects => exact Proc.Spec.pure hfail
  | crash => exact Proc.Spec.crash (fun _ h => h)

theorem breakerCheck_keeps (hI : Timeless I) : Proc.Keeps I (breakerCheck env) := by
  apply Proc.Keeps.bind (external_keeps hI)
  intro _
  apply Proc.Keeps.bind (step_keeps hI)
  intro n
  exact Proc.Keeps.ite (Proc.Keeps.raise _) (Proc.Keeps.pure ())

theorem record_keeps {a : Action} (h : ∀ s, I s → I (s.log a)) : Proc.Keeps I (record a) :=
  Proc.Keeps.modify h

theorem loadDestinationConfig_spec (hI : Timeless I) :
    Proc.Spec I (loadDestinationConfig env) (fun dest s => I s ∧ ∃ n, dest = env.config n) I := by
  apply Proc.Spec.bind (external_keeps hI)
  intro _
  apply Proc.Spec.bind (step_keeps hI)
  intro n
  exact Proc.Spec.pure (fun _ h => ⟨h, n, rfl⟩)

theorem sendBatch_spec {chunk : List Obj} (hI : Timeless I)
    (hsent : ∀ s a, I s → I (s.log (.sent chunk a))) :
    Proc.Spec I (sendBatch env chunk)
      (fun a s => I s ∧ ∀ r, a = some r → .sent chunk (some r) ∈ s.trace) I := by
  apply Proc.Spec.bind (step_keeps hI)
  intro n
  cases env.send n chunk with
  | result r =>
    apply Proc.Spec.bind (Q := fun _ s => I s ∧ .sent chunk (some r) ∈ s.trace)
    · exact Proc.Spec.modify (fun s hs => ⟨hsent s _ hs, List.mem_append_right _ (by simp)⟩)
    · intro _
      apply Proc.Spec.pure
      intro s hs
      refine ⟨hs.1, fun r' hr => ?_⟩
      cases hr
      exact hs.2
  | timeout =>
    apply Proc.Spec.bind (record_keeps (fun s => hsent s none))
    intro _
    exact Proc.Spec.pure (fun s hs => ⟨hs, by simp⟩)
  | raises =>
    apply Proc.Spec.bind (record_keeps (fun s => hsent s none))
    intro _
    exact Proc.Spec.raise (fun s hs => hs)
  | disconnects =>
    apply Proc.Spec.bind (record_keeps (fun s => hsent s none))
    intro _
    exact Proc.Spec.raise (fun s hs => hs)
  | crash =>
    apply Proc.Spec.bind (record_keeps (fun s => hsent s none))
    intro _
    exact Proc.Spec.crash (fun s hs => hs)

/-- The effects of sending chunks that pass `P` keep the invariant. -/
structure SendStable (rt : Runtime) (env : Environment) (destId : String) (destOrg : Option Int)
    (P : List Obj → Prop) (I : DeliveryState → Prop) : Prop where
  timeless : Timeless I
  sent : ∀ s chunk a, P chunk → I s → I (s.log (.sent chunk a))
  rejected : ∀ s chunk r, .sent chunk (some r) ∈ s.trace → r.retryable = false → I s →
    I { s with dlq := storeRejected rt env destId destOrg r.rejected chunk s.dlq }

/-- What a chunk's result must give: `Q` holds once the result is known, and once its rejected
events are stored. -/
structure SendPost (rt : Runtime) (env : Environment) (destId : String) (destOrg : Option Int)
    (chunk : List Obj) (I : DeliveryState → Prop) (Q : DeliveryResult → DeliveryState → Prop) :
    Prop where
  timeless : ∀ r, Timeless (Q r)
  keeps : ∀ r s, Q r s → I s
  clean : ∀ r s, .sent chunk (some r) ∈ s.trace → r.retryable = false → r.rejected = [] →
    I s → Q r s
  stored : ∀ r s, .sent chunk (some r) ∈ s.trace → r.retryable = false → I s →
    Q r { s with dlq := storeRejected rt env destId destOrg r.rejected chunk s.dlq }

variable {P : List Obj → Prop} {chunk : List Obj} {Q : DeliveryResult → DeliveryState → Prop}

theorem timeless_sent (hI : Timeless I) (r : DeliveryResult) :
    Timeless (fun s => I s ∧ .sent chunk (some r) ∈ s.trace) :=
  fun s n hs => ⟨hI s n hs.1, hs.2⟩

def AttemptPost (I : DeliveryState → Prop) (Q : DeliveryResult → DeliveryState → Prop) :
    Option DeliveryResult → DeliveryState → Prop
  | some r => Q r
  | none => I

theorem returnResult_spec (hQ : SendPost rt env destId destOrg chunk I Q) (r : DeliveryResult) :
    Proc.Spec (Q r) (do
      recordSuccess env r
      pure (some r) : Task (Option DeliveryResult))
      (AttemptPost I Q) I := by
  apply Proc.Spec.bind
  · exact Proc.Spec.exit (recordSuccess_keeps (hQ.timeless r) r) (hQ.keeps r)
  · intro _
    exact Proc.Spec.pure (fun _ h => h)

theorem persistRejectedToDlq_spec (hI : Timeless I)
    (hQ : SendPost rt env destId destOrg chunk I Q) {r : DeliveryResult}
    (hne : r.rejected ≠ []) (hretry : r.retryable = false) :
    Proc.Spec (fun s => I s ∧ .sent chunk (some r) ∈ s.trace)
      (persistRejectedToDlq rt env destId destOrg r.rejected chunk)
      (fun persisted s => if persisted then Q r s else I s) I := by
  unfold persistRejectedToDlq
  rw [if_neg (by simpa using hne)]
  apply Proc.Spec.exit (tryWrite_spec (timeless_sent hI r)
    (Q := fun persisted s => if persisted then Q r s else I s) _ _) (fun _ h => h.1)
  · intro s hs
    simpa using hQ.stored r s hs.2 hretry hs.1
  · intro s hs
    simpa using hs.1

theorem retry_spec (last : Bool) :
    Proc.Spec I (if last then Proc.raise .transient else pure none : Task (Option DeliveryResult))
      (AttemptPost I Q) I :=
  Proc.Spec.ite (fun _ => Proc.Spec.raise (fun _ h => h)) (fun _ => Proc.Spec.pure (fun _ h => h))

theorem settleAttempt_spec (hI : Timeless I) (hQ : SendPost rt env destId destOrg chunk I Q)
    (last : Bool) (answer : Option DeliveryResult) :
    Proc.Spec (fun s => I s ∧ ∀ r, answer = some r → .sent chunk (some r) ∈ s.trace)
      (settleAttempt rt env destId destOrg chunk last answer)
      (AttemptPost I Q) I := by
  cases answer with
  | none =>
    apply Proc.Spec.bind (Proc.Spec.pre (external_keeps hI) (fun _ h => h.1))
    intro _
    exact retry_spec last
  | some r =>
    apply Proc.Spec.pre (P := fun s => I s ∧ .sent chunk (some r) ∈ s.trace) _
      (fun s h => ⟨h.1, h.2 r rfl⟩)
    apply Proc.Spec.ite
    · intro hc
      simp only [Bool.and_eq_true, Bool.not_eq_true', List.isEmpty_eq_false_iff] at hc
      apply Proc.Spec.bind (persistRejectedToDlq_spec hI hQ hc.1 hc.2)
      intro persisted
      cases persisted with
      | false => exact Proc.Spec.raise (fun s h => by simpa using h)
      | true => simpa using returnResult_spec hQ r
    · intro hc
      apply Proc.Spec.ite
      · intro _
        apply Proc.Spec.bind (Proc.Spec.pre (external_keeps hI) (fun _ h => h.1))
        intro _
        apply Proc.Spec.ite (fun _ => Proc.Spec.raise (fun _ h => h))
        intro _
        exact retry_spec last
      · intro hr
        have hretry : r.retryable = false := by simpa using hr
        have hnone : r.rejected = [] := by simpa [hretry] using hc
        exact Proc.Spec.pre (returnResult_spec hQ r)
          (fun s h => hQ.clean r s h.2 hretry hnone h.1)

theorem attemptChunk_spec (hI : SendStable rt env destId destOrg P I) (hP : P chunk)
    (hQ : SendPost rt env destId destOrg chunk I Q) (last isRetry : Bool) :
    Proc.Spec I (attemptChunk rt env destId destOrg chunk last isRetry)
      (AttemptPost I Q) I := by
  apply Proc.Spec.bind (step_keeps hI.timeless)
  intro n
  apply Proc.Spec.ite (fun _ => Proc.Spec.raise (fun _ h => h))
  intro _
  apply Proc.Spec.bind (breakerCheck_keeps hI.timeless)
  intro _
  apply Proc.Spec.bind (sendBatch_spec hI.timeless (fun s a => hI.sent s chunk a hP))
  intro answer
  exact settleAttempt_spec hI.timeless hQ last answer

theorem sendChunkWithRetry_spec (hI : SendStable rt env destId destOrg P I) (hP : P chunk)
    (hQ : SendPost rt env destId destOrg chunk I Q) (left : Nat) (isRetry : Bool) :
    Proc.Spec I (sendChunkWithRetry rt env destId destOrg chunk left isRetry) Q I := by
  induction left generalizing isRetry with
  | zero =>
    apply Proc.Spec.bind (attemptChunk_spec hI hP hQ true isRetry)
    intro a
    cases a with
    | some r => exact Proc.Spec.pure (fun _ h => h)
    | none => exact Proc.Spec.raise (fun _ h => h)
  | succ left ih =>
    apply Proc.Spec.bind (attemptChunk_spec hI hP hQ false isRetry)
    intro a
    cases a with
    | some r => exact Proc.Spec.pure (fun _ h => h)
    | none => exact ih true

theorem SendStable.and {J : DeliveryState → Prop} (hI : SendStable rt env destId destOrg P I)
    (hJ : SendStable rt env destId destOrg P J) :
    SendStable rt env destId destOrg P (fun s => I s ∧ J s) where
  timeless s n h := ⟨hI.timeless s n h.1, hJ.timeless s n h.2⟩
  sent s chunk a hP h := ⟨hI.sent s chunk a hP h.1, hJ.sent s chunk a hP h.2⟩
  rejected s chunk r hs hr h :=
    ⟨hI.rejected s chunk r hs hr h.1, hJ.rejected s chunk r hs hr h.2⟩

/-- `D chunk` holds once the chunk has a final result, and from then on. -/
structure ChunkDone (rt : Runtime) (env : Environment) (destId : String) (destOrg : Option Int)
    (P : List Obj → Prop) (I : DeliveryState → Prop) (D : List Obj → DeliveryState → Prop) :
    Prop where
  stable : ∀ chunk, SendStable rt env destId destOrg P (D chunk)
  clean : ∀ chunk r s, .sent chunk (some r) ∈ s.trace → r.retryable = false →
    r.rejected = [] → D chunk s
  stored : ∀ chunk r s, .sent chunk (some r) ∈ s.trace → r.retryable = false → I s →
    D chunk { s with dlq := storeRejected rt env destId destOrg r.rejected chunk s.dlq }

variable {J : DeliveryState → Prop} {D : List Obj → DeliveryState → Prop}

theorem ChunkDone.post (hD : ChunkDone rt env destId destOrg P I D)
    (hJ : SendStable rt env destId destOrg P J) (hJI : ∀ s, J s → I s) (chunk : List Obj) :
    SendPost rt env destId destOrg chunk J (fun _ s => J s ∧ D chunk s) where
  timeless _ := (hJ.and (hD.stable chunk)).timeless
  keeps _ _ h := h.1
  clean r s hs hr hn h := ⟨h, hD.clean chunk r s hs hr hn⟩
  stored r s hs hr h := ⟨hJ.rejected s chunk r hs hr h, hD.stored chunk r s hs hr (hJI s h)⟩

theorem sendChunks_spec (hD : ChunkDone rt env destId destOrg P I D)
    (hJ : SendStable rt env destId destOrg P J) (hJI : ∀ s, J s → I s) (retries : Nat)
    (chunks : List (List Obj)) (hP : ∀ chunk ∈ chunks, P chunk) :
    Proc.Spec J (sendChunks rt env destId destOrg retries chunks)
      (fun _ s => J s ∧ ∀ chunk ∈ chunks, D chunk s) J := by
  induction chunks generalizing J with
  | nil => exact Proc.Spec.pure (fun s h => ⟨h, by simp⟩)
  | cons chunk rest ih =>
    apply Proc.Spec.bind
      (sendChunkWithRetry_spec hJ (hP chunk (by simp)) (hD.post hJ hJI chunk) retries false)
    intro _
    have hrest := ih (hJ.and (hD.stable chunk)) (fun s h => hJI s h.1)
      (fun c hc => hP c (List.mem_cons_of_mem _ hc))
    exact Proc.Spec.weaken hrest (fun _ h => h)
      (fun _ s h => ⟨h.1.1, List.forall_mem_cons.2 ⟨h.1.2, h.2⟩⟩) (fun _ h => h.1)

theorem deliver_spec {cfg : DestinationConfig} {batch : List Obj}
    (hI : SendStable rt env destId cfg.organizationId P I)
    (hD : ChunkDone rt env destId cfg.organizationId P I D)
    (hP : cfg.delivery.shadow = false → ∀ chunk ∈ chunksFor rt settings cfg batch, P chunk) :
    Proc.Spec I (deliver rt settings env destId cfg batch)
      (fun _ s => I s ∧ (cfg.delivery.shadow = false →
        ∀ chunk ∈ chunksFor rt settings cfg batch, D chunk s)) I := by
  apply Proc.Spec.bind (external_keeps hI.timeless)
  intro _
  apply Proc.Spec.ite
  · intro hsh
    exact Proc.Spec.pure (fun s h => ⟨h, fun hn => by simp [hn] at hsh⟩)
  · intro hsh
    have hsh' : cfg.delivery.shadow = false := by simpa using hsh
    apply Proc.Spec.bind
      (sendChunks_spec hD hI (fun _ h => h) (retriesOf cfg) _ (hP hsh'))
    intro _
    have hpost : Timeless (fun s => I s ∧ ∀ chunk ∈ chunksFor rt settings cfg batch, D chunk s) :=
      fun s n h => ⟨hI.timeless s n h.1, fun c hc => (hD.stable c).timeless s n (h.2 c hc)⟩
    exact Proc.Spec.weaken (external_keeps hpost) (fun _ h => h)
      (fun _ s h => ⟨h.1, fun _ => h.2⟩) (fun _ h => h.1)

theorem persistBatchDlq_spec {batch : List Obj} {errorKind : String} {org : Option Int}
    {detail : Option String} {Q : Bool → DeliveryState → Prop} (hI : Timeless I)
    (hempty : batch = [] → ∀ s, I s → Q true s)
    (hok : ∀ s, I s → Q true (DeliveryState.log { s with
      dlq := storeBatch rt env batch destId errorKind org detail s.dlq } (.parked errorKind true)))
    (hfail : ∀ s, I s → Q false (s.log (.parked errorKind false))) :
    Proc.Spec I (persistBatchDlq rt env batch destId errorKind org detail) Q I := by
  apply Proc.Spec.ite
  · intro he
    exact Proc.Spec.pure (hempty (List.isEmpty_iff.1 he))
  · intro _
    apply Proc.Spec.bind
      (tryWrite_spec hI (Q := fun written s => Q written (s.log (.parked errorKind written)))
        hok hfail)
    intro written
    exact Proc.Spec.bind (Proc.Spec.modify (Q := fun _ => Q written) (fun _ h => h))
      (fun _ => Proc.Spec.pure (fun _ h => h))

end Rules

end CentralOps
