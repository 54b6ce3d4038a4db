import CentralOps.Lib.Calendar
import CentralOps.Lib.Decimal
import CentralOps.Lib.Words
import CentralOps.Delivery.Dispatch
import CentralOps.Normalize.Envelope

namespace CentralOps
set_option autoImplicit true

/-- `_prefix`, the compression and whether there are credentials. -/
structure S3Client where
  keyPrefix : String
  gzip : Bool
  hasCredentials : Bool

/-- `(prefix or "centralops").strip("/")`. -/
def normalPrefix (path : String) : String :=
  String.ofList (Words.trim '/' (if path = "" then "centralops" else path).toList)

def S3Client.new (path compression : String) (hasCredentials : Bool) : S3Client where
  keyPrefix := normalPrefix path
  gzip := compression ≠ "none"
  hasCredentials := hasCredentials

/-- `s.replace("Z", "+00:00")`. -/
def replaceZulu (s : String) : String :=
  String.ofList (s.toList.flatMap (fun c => if c = 'Z' then "+00:00".toList else [c]))

/-- An instant: a reading of the wall clock of UTC, in microseconds. -/
abbrev UtcClock := Fin Py.wallLimit

/-- The UTC date of a wall clock. -/
def utcDate (wall : Nat) : Nat × Nat × Nat := Py.ofOrdinal (wall / Py.dayMicros + 1)

/-- `_partition_dt`. -/
def partitionWall (envelope : Obj) (clock : UtcClock) : Except PyError Nat :=
  let labels := eventLabels envelope
  let received := labels.getN "received_at"
  match if received.truthy then received else labels.getN "timestamp" with
  | .str raw =>
    if raw = "" then .ok clock
    else
      match Py.fromIsoFormat (Py.text (replaceZulu raw)) with
      | some dt =>
        match dt.utcWall with
        | some wall => .ok wall
        | none => .error .overflowError
      | none => .ok clock
  | _ => .ok clock

def datePath (wall : Nat) : String :=
  let date := utcDate wall
  String.ofList (['/'].intercalate
    [Decimal.padded 4 date.1, Decimal.padded 2 date.2.1, Decimal.padded 2 date.2.2])

section Keys
variable (rt : Runtime)

/-- `str(oid)`, or `global` for one of `None` or `""`. -/
def orgText : Json → String
  | .null => "global"
  | .str oid => if oid = "" then "global" else oid
  | .int n => toString n
  | oid => rt.str oid

/-- `_org_id`. -/
def s3OrgId (envelope : Obj) : String := orgText rt ((eventLabels envelope).getN "organization_id")

/-- `hashlib.sha1(...).hexdigest()`. -/
def sha1Hex (s : String) : String :=
  String.ofList ((List.range 40).map
    (fun i => Nat.digitChar ((rt.sha1 s).toNat / 16 ^ (39 - i) % 16)))

def batchIds (batch : List Obj) : List String :=
  batch.zipIdx.map (fun p => (envelopeEventId rt p.1).getD ("#" ++ toString p.2))

/-- Each id and a newline. -/
def hashedText (ids : List String) : String :=
  String.ofList (ids.flatMap (fun id => id.toList ++ ['\n']))

def batchHash (batch : List Obj) : String := sha1Hex rt (hashedText (batchIds rt batch))

/-- `_object_key`. -/
def S3Client.objectKey (client : S3Client) (batch : List Obj) (clock : UtcClock) :
    Except PyError String := do
  let oid := (batch.head?.map (s3OrgId rt)).getD "global"
  let wall ← (batch.head?.map (fun ev => partitionWall ev clock)).getD (.ok clock.val)
  let ext := if client.gzip then "ndjson.gz" else "ndjson"
  pure (client.keyPrefix ++ "/org=" ++ oid ++ "/" ++ datePath wall ++ "/" ++ batchHash rt batch ++
    "." ++ ext)

end Keys

/-- What the SDK answers to a request: it returned, is missing, or raised with what its error
carries. -/
inductive S3Reply where
  | done
  | noSdk (message : String)
  | raised (code : Option String) (status : Option Nat) (message : String)

def authErrorCodes : List String :=
  ["AccessDenied", "InvalidAccessKeyId", "SignatureDoesNotMatch", "InvalidToken", "ExpiredToken",
    "AccountProblem", "AllAccessDisabled"]

/-- `_classify_error`. -/
def classifyS3Error (code : Option String) (status : Option Nat) : String × Bool :=
  if code.any authErrorCodes.contains then ("auth", false)
  else
    match status with
    | some status =>
      if status = 401 ∨ status = 403 then ("auth", false)
      else if 400 ≤ status ∧ status < 500 ∧ status ≠ 408 ∧ status ≠ 429 then
        ("schema_rejected", false)
      else ("unknown", true)
    | none => ("unknown", true)

section Send
variable (rt : Runtime)

def rejectAll (batch : List Obj) (reason errorKind : String) : DeliveryResult :=
  { accepted := 0
    rejected := batch.map (fun ev =>
      { eventId := (envelopeEventId rt ev).getD "?", errorKind := errorKind, reason := reason }) }

/-- `send_batch`: the result, with the key that was put if any was. -/
def S3Client.sendBatch (client : S3Client) (batch : List Obj) (clock : UtcClock) (reply : S3Reply) :
    Except PyError (DeliveryResult × Option String) := do
  if batch.isEmpty then pure ({ accepted := 0 }, none)
  else if !client.hasCredentials then
    pure (rejectAll rt batch "sem credencial S3 (secret_ref ausente e use_iam_role=False)" "auth", none)
  else
    let key ← client.objectKey rt batch clock
    match reply with
    | .done => pure ({ accepted := batch.length }, some key)
    | .noSdk message => pure (rejectAll rt batch message "unknown", none)
    | .raised code status message =>
      let (kind, retryable) := classifyS3Error code status
      if retryable then pure ({ accepted := 0, retryable := true }, some key)
      else pure (rejectAll rt batch (kind ++ ": " ++ message) kind, some key)

theorem sendBatch_key {rt : Runtime} {client : S3Client} {batch : List Obj} {clock : UtcClock}
    {reply : S3Reply} (h : client.sendBatch rt batch clock reply = .ok (r, some key)) :
    ∃ ev rest, batch = ev :: rest ∧ client.objectKey rt batch clock = .ok key := by
  cases batch with
  | nil => cases h
  | cons ev rest =>
    refine ⟨ev, rest, rfl, ?_⟩
    rw [S3Client.sendBatch, if_neg (by simp)] at h
    split at h
    · cases h
    · cases hk : client.objectKey rt (ev :: rest) clock with
      | error e => rw [hk] at h; cases h
      | ok key' =>
        rw [hk] at h
        cases reply with
        | done => exact congrArg Except.ok (Option.some.inj (congrArg Prod.snd (Except.ok.inj h)))
        | noSdk message => cases congrArg Prod.snd (Except.ok.inj h)
        | raised code status message =>
          change (if (classifyS3Error code status).2 = true then _ else _) = _ at h
          split at h
          · exact congrArg Except.ok (Option.some.inj (congrArg Prod.snd (Except.ok.inj h)))
          · exact congrArg Except.ok (Option.some.inj (congrArg Prod.snd (Except.ok.inj h)))

end Send
/-- What `build_envelope` is called with. -/
structure BuiltEvent where
  raw : Obj
  normalized : Obj
  ctx : EnvelopeContext
  vendorMsgId : Option String
  collectedAt : String

section Built
variable (rt : EnvelopeRuntime)

def BuiltEvent.envelope (e : BuiltEvent) : Obj :=
  buildEnvelope rt e.raw e.normalized e.ctx e.vendorMsgId e.collectedAt

def BuiltEvent.eventId (e : BuiltEvent) : String := computeEventId rt e.raw e.vendorMsgId

/-- The key under which a client puts a batch of built envelopes at an instant. -/
def S3Client.builtKey (client : S3Client) (batch : List BuiltEvent) (clock : UtcClock) :
    Except PyError String :=
  client.objectKey rt.toRuntime (batch.map (·.envelope rt)) clock

/-- The ids of a batch, each cut at its newlines. -/
def idLines (batch : List BuiltEvent) : List (List Char) :=
  (batch.map (·.eventId rt)).flatMap (fun id => id.toList.splitOn '\n')

end Built

section Keys
variable {rt : EnvelopeRuntime}

theorem eventId_ne (e : BuiltEvent) : e.eventId rt ≠ "" := by
  have hcontent : contentEventId rt e.raw ≠ "" := by
    rw [contentEventId]
    intro h
    have hlist := congrArg String.toList h
    rw [String.toList_append] at hlist
    cases hlist
  rw [BuiltEvent.eventId, computeEventId.eq_def]
  split
  · split
    · exact hcontent
    · assumption
  · exact hcontent

theorem envelopeEventId_built (e : BuiltEvent) :
    envelopeEventId rt.toRuntime (e.envelope rt) = some (e.eventId rt) := by
  have hid : (eventLabels (e.envelope rt)).getN "event_id" = .str (e.eventId rt) := rfl
  rw [envelopeEventId, hid]
  exact if_pos (decide_eq_true (eventId_ne e))

theorem batchIds_built (batch : List BuiltEvent) :
    batchIds rt.toRuntime (batch.map (·.envelope rt)) = batch.map (·.eventId rt) := by
  rw [batchIds, List.zipIdx_map, List.map_map]
  apply List.ext_getElem?
  intro i
  simp [List.getElem?_zipIdx, envelopeEventId_built, Function.comp_def]

theorem builtKey_cons (client : S3Client) (e : BuiltEvent) (batch : List BuiltEvent)
    (clock : UtcClock) :
    client.builtKey rt (e :: batch) clock =
      .ok (client.keyPrefix ++ "/org=" ++ s3OrgId rt.toRuntime (e.envelope rt) ++ "/" ++
        datePath clock ++ "/" ++ batchHash rt.toRuntime ((e :: batch).map (·.envelope rt)) ++ "." ++
          if client.gzip then "ndjson.gz" else "ndjson") := rfl

theorem datePath_inj {m n : Nat} : datePath m = datePath n ↔ utcDate m = utcDate n := by
  constructor
  · intro h
    have hfree : ∀ k, ∀ w ∈ [Decimal.padded 4 (utcDate k).1, Decimal.padded 2 (utcDate k).2.1,
        Decimal.padded 2 (utcDate k).2.2], '/' ∉ w := by
      intro k w hw
      simp only [List.mem_cons, List.not_mem_nil, or_false] at hw
      obtain rfl | rfl | rfl := hw <;> exact Decimal.notMem_padded _ _ rfl
    have hparts := (Words.intercalate_inj (hfree m) (hfree n) (List.cons_ne_nil _ _)
      (List.cons_ne_nil _ _)).1 (String.ofList_inj.1 h)
    simp only [List.cons.injEq, and_true] at hparts
    exact Prod.ext (Decimal.padded_injective hparts.1)
      (Prod.ext (Decimal.padded_injective hparts.2.1) (Decimal.padded_injective hparts.2.2))
  · intro h
    rw [datePath, datePath, h]

theorem builtKey_date_iff (client : S3Client) {batch : List BuiltEvent} (hne : batch ≠ [])
    (t t' : UtcClock) :
    client.builtKey rt batch t = client.builtKey rt batch t' ↔ utcDate t = utcDate t' := by
  cases batch with
  | nil => exact absurd rfl hne
  | cons e batch =>
    rw [builtKey_cons, builtKey_cons, Except.ok.injEq, String.append_left_inj,
      String.append_left_inj, String.append_left_inj, String.append_left_inj,
      String.append_right_inj, datePath_inj]

theorem hashedText_inj {ids ids' : List String} :
    hashedText ids = hashedText ids' ↔
      ids.flatMap (fun id => id.toList.splitOn '\n') =
        ids'.flatMap (fun id => id.toList.splitOn '\n') := by
  have hcut : ∀ l : List String, l.flatMap (fun id => id.toList ++ ['\n']) =
      (l.flatMap (fun id => id.toList.splitOn '\n')).flatMap (fun w => w ++ ['\n']) := by
    intro l
    rw [List.flatMap_assoc]
    apply List.flatMap_congr
    intro id _
    exact Words.append_mark _ _
  have hfree : ∀ l : List String, ∀ w ∈ l.flatMap (fun id => id.toList.splitOn '\n'), '\n' ∉ w := by
    intro l w hw hin
    obtain ⟨id, -, hw⟩ := List.mem_flatMap.1 hw
    rw [List.splitOn_eq_splitOnP] at hw
    have hfalse := Words.splitOnP_forall _ _ w hw '\n' hin
    exact Bool.false_ne_true (hfalse.symm.trans (beq_self_eq_true _))
  rw [hashedText, hashedText, String.ofList_inj, hcut, hcut,
    Words.flatMap_mark_inj (hfree ids) (hfree ids')]

/-- The two properties of the keys of a client: a batch has one key whenever it is delivered, and
batches of one organisation and date with different ids have different keys. -/
structure KeysContract (rt : EnvelopeRuntime) (client : S3Client) (batch batch' : List BuiltEvent)
    (t t' : UtcClock) : Prop where
  stable : client.builtKey rt batch t = client.builtKey rt batch t'
  apart : utcDate t = utcDate t' → batch.map (·.eventId rt) ≠ batch'.map (·.eventId rt) →
    client.builtKey rt batch t ≠ client.builtKey rt batch' t'

theorem builtKey_apart_iff (client : S3Client) (e e' : BuiltEvent) (batch batch' : List BuiltEvent)
    {t t' : UtcClock} (horg : e.ctx.organizationId = e'.ctx.organizationId)
    (hsha : sha1Hex rt.toRuntime (hashedText ((e :: batch).map (·.eventId rt))) =
        sha1Hex rt.toRuntime (hashedText ((e' :: batch').map (·.eventId rt))) →
      hashedText ((e :: batch).map (·.eventId rt)) =
        hashedText ((e' :: batch').map (·.eventId rt)))
    (hdate : utcDate t = utcDate t') :
    client.builtKey rt (e :: batch) t ≠ client.builtKey rt (e' :: batch') t' ↔
      idLines rt (e :: batch) ≠ idLines rt (e' :: batch') := by
  have hid : s3OrgId rt.toRuntime (e.envelope rt) = s3OrgId rt.toRuntime (e'.envelope rt) := by
    have horgs : ∀ d : BuiltEvent, (eventLabels (d.envelope rt)).getN "organization_id" =
        .ofInt? d.ctx.organizationId := fun _ => rfl
    rw [s3OrgId, s3OrgId, horgs, horgs, horg]
  apply not_congr
  rw [builtKey_cons, builtKey_cons, Except.ok.injEq, String.append_left_inj,
    String.append_left_inj, hid, datePath_inj.2 hdate, String.append_right_inj, batchHash, batchHash,
    batchIds_built, batchIds_built]
  exact ⟨fun h => hashedText_inj.1 (hsha h), fun h => congrArg _ (hashedText_inj.2 h)⟩

/-- The keys are as they should be exactly where the two deliveries are on one UTC date and ids
that differ still differ when they are cut at their newlines. -/
theorem object_keys_iff (rt : EnvelopeRuntime) (client : S3Client) (e e' : BuiltEvent)
    (batch batch' : List BuiltEvent) (t t' : UtcClock)
    (horg : e.ctx.organizationId = e'.ctx.organizationId)
    (hsha : sha1Hex rt.toRuntime (hashedText ((e :: batch).map (·.eventId rt))) =
        sha1Hex rt.toRuntime (hashedText ((e' :: batch').map (·.eventId rt))) →
      hashedText ((e :: batch).map (·.eventId rt)) =
        hashedText ((e' :: batch').map (·.eventId rt))) :
    KeysContract rt client (e :: batch) (e' :: batch') t t' ↔
      utcDate t = utcDate t' ∧
        ((e :: batch).map (·.eventId rt) ≠ (e' :: batch').map (·.eventId rt) →
          idLines rt (e :: batch) ≠ idLines rt (e' :: batch')) := by
  have hstable : client.builtKey rt (e :: batch) t = client.builtKey rt (e :: batch) t' ↔
      utcDate t = utcDate t' := builtKey_date_iff client (List.cons_ne_nil e batch) t t'
  constructor
  · intro h
    have hdate := hstable.1 h.stable
    exact ⟨hdate, fun hids =>
      (builtKey_apart_iff client e e' batch batch' horg hsha hdate).1 (h.apart hdate hids)⟩
  · intro h
    exact ⟨hstable.2 h.1, fun hdate hids =>
      (builtKey_apart_iff client e e' batch batch' horg hsha hdate).2 (h.2 hids)⟩

end Keys
/-- An alert of one organisation with an id of its vendor. -/
def alertWithId (id : String) : BuiltEvent where
  raw := []
  normalized := []
  ctx :=
    { vendor := "sophos", integrationId := 1, customerId := some 1, stream := "alerts"
      eventType := "alert", mappingVersionId := none, collectorHost := "worker"
      organizationId := some 1 }
  vendorMsgId := some id
  collectedAt := "2026-01-05T23:59:58Z"

/-- The fifth of January 2026, one second before midnight, and the second that follows it. -/
def beforeMidnight : UtcClock := ⟨739621 * Py.dayMicros - 1000000, by decide⟩

def afterMidnight : UtcClock := ⟨739621 * Py.dayMicros, by decide⟩

def sha1Runtime : EnvelopeRuntime :=
  { EnvelopeRuntime.ascii with
    sha1 := fun s =>
      if s = "a\n" then 0x3f786850e387550fdab836ed7e6dc881de23001b#160
      else if s = "b\n" then 0x89e6c98d92887913cadf06b2adb97f26cde4849b#160
      else 0 }

theorem object_keys_iff_same_day :
    KeysContract sha1Runtime (.new "centralops" "gzip" true) [alertWithId "a"] [alertWithId "b"]
      beforeMidnight beforeMidnight :=
  (object_keys_iff sha1Runtime _ (alertWithId "a") (alertWithId "b") [] [] _ _ rfl
    (by decide +kernel)).2 ⟨rfl, fun _ => by decide +kernel⟩

/-- A redelivery after midnight, and two ids written as one. -/
theorem object_keys_broken :
    S3Client.builtKey sha1Runtime (.new "centralops" "gzip" true) [alertWithId "a"] beforeMidnight ≠
        S3Client.builtKey sha1Runtime (.new "centralops" "gzip" true) [alertWithId "a"]
          afterMidnight ∧
      [alertWithId "a", alertWithId "b"].map (·.eventId sha1Runtime) ≠
          [alertWithId "a\nb"].map (·.eventId sha1Runtime) ∧
        S3Client.builtKey sha1Runtime (.new "centralops" "gzip" true)
            [alertWithId "a", alertWithId "b"] beforeMidnight =
          S3Client.builtKey sha1Runtime (.new "centralops" "gzip" true) [alertWithId "a\nb"]
            beforeMidnight := by
  refine ⟨?_, by decide +kernel, ?_⟩
  · intro h
    have hdate := (builtKey_date_iff _ (List.cons_ne_nil _ _) _ _).1 h
    exact absurd hdate (by decide +kernel)
  · have hlines : idLines sha1Runtime [alertWithId "a", alertWithId "b"] =
        idLines sha1Runtime [alertWithId "a\nb"] := by decide +kernel
    have htext : hashedText ([alertWithId "a", alertWithId "b"].map (·.eventId sha1Runtime)) =
        hashedText ([alertWithId "a\nb"].map (·.eventId sha1Runtime)) := hashedText_inj.2 hlines
    have horg : (alertWithId "a").ctx.organizationId = (alertWithId "a\nb").ctx.organizationId := rfl
    have hdate : utcDate beforeMidnight = utcDate beforeMidnight := rfl
    by_contra h
    exact (builtKey_apart_iff _ _ _ _ _ horg (fun _ => htext) hdate).1 h hlines

end CentralOps
