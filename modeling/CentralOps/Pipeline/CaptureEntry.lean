import CentralOps.Lib.JsonText
import CentralOps.Pipeline.CaptureSession

namespace CentralOps
set_option autoImplicit true

def sensitiveFieldNames : List String :=
  ["password", "client_secret", "api_password", "api_username", "manager_api_password",
    "manager_api_username", "indexer_password", "indexer_username", "smtp_password",
    "access_token", "refresh_token", "authorization", "token", "secret", "master_key",
    "app_master_key", "secret_id", "role_id", "vault_token", "api_key", "apikey", "x-api-key",
    "private_key", "secret_key", "session_key", "credentials", "passwd", "pwd", "cookie",
    "set-cookie", "bearer"]

structure RingLibrary where
  lower : String → String
  casefold : String → String
  str : Json → String
  /-- `\w`. -/
  isWord : Char → Bool
  floatText : PyFloat → List Char
  lower_ascii : ∀ s : String, (∀ c ∈ s.toList, c.toNat < 128 ∧ c.isUpper = false) →
    lower s = s
  floatText_number : ∀ q, JsonText.IsNumber (floatText (.finite q))

/-- `pattern.sub(rep, s)`: the pattern tells how much of the rest it takes after a character. -/
def subFrom (pattern : Option Char → List Char → Option Nat) (rep : List Char) :
    Option Char → Nat → List Char → List Char
  | _, _, [] => []
  | _, skip + 1, c :: cs => subFrom pattern rep (some c) skip cs
  | prev, 0, c :: cs =>
    match pattern prev (c :: cs) with
    | some n => rep ++ subFrom pattern rep (some c) (n - 1) cs
    | none => c :: subFrom pattern rep (some c) 0 cs

/-- `_PAT_PATTERN`. -/
def patPattern (_ : Option Char) (cs : List Char) : Option Nat :=
  if "copsk_".toList.isPrefixOf cs then
    let run := (cs.drop 6).takeWhile (fun c : Char => c.isAlphanum || c == '_' || c == '-')
    if 20 ≤ run.length then some (6 + min run.length 80) else none
  else none

section Redact
variable (lib : RingLibrary)

/-- `_VAULT_TOKEN_PATTERN`. -/
def vaultTokenPattern (prev : Option Char) (cs : List Char) : Option Nat :=
  if prev.any lib.isWord then none
  else
    let modern := match cs with
      | 'h' :: 'v' :: x :: '.' :: rest =>
        let run := rest.takeWhile (fun c : Char => c.isAlphanum || c == '.' || c == '_' || c == '-')
        if x ∈ ['s', 'b', 'r'] ∧ 8 ≤ run.length then some (4 + run.length) else none
      | _ => none
    let legacy := match cs with
      | x :: '.' :: rest =>
        let run := rest.takeWhile Char.isAlphanum
        if x ∈ ['s', 'b'] ∧ 24 ≤ run.length then some (2 + run.length) else none
      | _ => none
    modern.or legacy

/-- `scrub_secrets_in_value`. -/
def scrubSecretsInValue (s : String) : String :=
  String.ofList (subFrom (vaultTokenPattern lib) "[REDACTED_VAULT_TOKEN]".toList none 0
    (subFrom patPattern "copsk_[REDACTED]".toList none 0 s.toList))

mutual
/-- `_redact`. -/
def captureRedact : Json → Json
  | .obj o => .obj (captureRedactFields o)
  | .list xs => .list (captureRedactItems xs)
  | .str s => .str (scrubSecretsInValue lib s)
  | v => v

def captureRedactItems : List Json → List Json
  | [] => []
  | x :: xs => captureRedact x :: captureRedactItems xs

def captureRedactFields : Obj → Obj
  | [] => []
  | (k, v) :: o =>
    (k, if lib.lower k ∈ sensitiveFieldNames then .str "[REDACTED]" else captureRedact v) ::
      captureRedactFields o
end

end Redact

section Reduce
variable (strCap arrayCap : Nat)

def clippedString (s : String) : String :=
  if s.length > strCap then
    String.ofList (s.toList.take strCap) ++ "…[+" ++ toString (s.length - strCap) ++ " chars]"
  else s

mutual
/-- `_reduce_structure`. -/
def reduceStructure : Json → Json
  | .str s => .str (clippedString strCap s)
  | .list xs =>
    let reduced := (reduceItems xs).take arrayCap
    .list (if xs.length > arrayCap then
      reduced ++ [.str ("…[+" ++ toString (xs.length - arrayCap) ++ " items truncados]")]
    else reduced)
  | .obj o => .obj (reduceFields o)
  | v => v

def reduceItems : List Json → List Json
  | [] => []
  | x :: xs => reduceStructure x :: reduceItems xs

def reduceFields : Obj → Obj
  | [] => []
  | (k, v) :: o => (k, reduceStructure v) :: reduceFields o
end

end Reduce

section Text
variable (floatText : PyFloat → List Char)

mutual
/-- The text of `orjson`, compact and in raw UTF-8. -/
def Json.text : Json → List Char
  | .null => "null".toList
  | .bool b => if b then "true".toList else "false".toList
  | .int n => (toString n).toList
  | .float x => floatText x
  | .str s => JsonText.quote s.toList
  | .list xs => '[' :: List.intercalate [','] (itemTexts xs) ++ [']']
  | .obj o => '\x7b' :: List.intercalate [','] (fieldTexts o) ++ ['\x7d']

def itemTexts : List Json → List (List Char)
  | [] => []
  | x :: xs => x.text :: itemTexts xs

def fieldTexts : Obj → List (List Char)
  | [] => []
  | (k, v) :: o => (JsonText.quote k.toList ++ ':' :: v.text) :: fieldTexts o
end

end Text

mutual
/-- What JSON has a text for: no float is infinite or NaN. -/
def Json.Standard : Json → Prop
  | .float (.finite _) => True
  | .float _ => False
  | .list xs => StandardItems xs
  | .obj o => StandardFields o
  | _ => True

def StandardItems : List Json → Prop
  | [] => True
  | x :: xs => x.Standard ∧ StandardItems xs

def StandardFields : Obj → Prop
  | [] => True
  | (_, v) :: o => v.Standard ∧ StandardFields o
end

def maxDetailChars : Nat := 200
def maxFieldBytes : Nat := 8192
def maxEntryBytes : Nat := 65536

def byteSize (cs : List Char) : Nat := (cs.map Char.utf8Size).sum

structure RingPayload where
  event : Json
  rest : Obj

def RingPayload.toObj (p : RingPayload) : Obj := ("v", .int 2) :: ("event", p.event) :: p.rest

def RingPayload.withEvent (p : RingPayload) (event : Obj) : RingPayload :=
  { p with event := .obj event }

/-- What `_clip_for_ring` tells of a cut. -/
structure ClipMeta where
  truncated : List (String × String)
  droppedBlocks : List String
  originalBytes : Nat
  keptBytes : Nat

def ClipMeta.toJson (report : ClipMeta) : Json :=
  .obj [("truncated", .list (report.truncated.map fun note =>
      .obj [("path", .str note.1), ("how", .str note.2)])),
    ("dropped_blocks", .list (report.droppedBlocks.map .str)),
    ("original_bytes", .int report.originalBytes),
    ("kept_bytes", .int report.keptBytes)]

/-- `payload["_capture"] = clip_meta`. -/
def RingPayload.withCapture (p : RingPayload) (report : ClipMeta) : RingPayload :=
  { p with rest := p.rest ++ [("_capture", report.toJson)] }

def droppedMarker : Json := .obj [("__truncated__", .bool true), ("reason", .str "entry_cap")]

section Clip
variable (lib : RingLibrary)

/-- `_dumps`. -/
def dumpsEntry (p : RingPayload) : List Char := (Json.obj p.toObj).text lib.floatText

def RingPayload.bytes (p : RingPayload) : Nat := byteSize (dumpsEntry lib p)

def RingPayload.fits (p : RingPayload) : Bool := decide (p.bytes lib ≤ maxEntryBytes)

/-- A pass of the loop over the blocks. What fits goes on fitting, so that a loop that has been
left stays where it is. -/
def dropBlock (p : RingPayload) (acc : Obj × List String) (block : String) : Obj × List String :=
  if (p.withEvent acc.1).fits lib then acc
  else
    match acc.1.getN block with
    | .null => acc
    | _ => (Assoc.set block droppedMarker acc.1, acc.2 ++ [block])

/-- `_clip_for_ring`, with the payload whose text it returns. -/
def clipForRing (p : RingPayload) : RingPayload × Option ClipMeta :=
  if p.fits lib then (p, none)
  else
    match p.event with
    | .obj event =>
      let cut := ["raw", "normalized"].foldl (dropBlock lib p)
        (reduceFields maxFieldBytes 200 event, [])
      let kept := p.withEvent cut.1
      (kept, some ⟨[("event", "reduce_structure")], cut.2, p.bytes lib, kept.bytes lib⟩)
    | _ => (p, some ⟨[], [], p.bytes lib, p.bytes lib⟩)

/-- An entry as it is stored, with the blocks that a marker has replaced there and what it says of
its cut. -/
structure StoredEntry where
  payload : RingPayload
  replaced : List String
  capture : Option ClipMeta

/-- The two calls of `_clip_for_ring`. -/
def storeEntry (p : RingPayload) : StoredEntry :=
  match clipForRing lib p with
  | (kept, none) => ⟨kept, [], none⟩
  | (_, some report) =>
    let again := clipForRing lib (p.withCapture report)
    ⟨again.1, (again.2.map ClipMeta.droppedBlocks).getD [], some report⟩

end Clip

/-- The arguments of `_entries_for` beside the session and the batch. -/
structure TapArgs where
  now : Rat
  outcome : String
  destinationId : Option String := none
  detail : Option String := none
  routeId : Option String := none
  stage : String := "routed"
  payloadKind : String := "envelope"
  piiRedacted : Bool := false
  eventIds : Option (List (Option String)) := none
  destinationKind : Option String := none
  destConfigVersion : Option String := none
  wires : Option (List (Option Obj)) := none

/-- `ev["_centralops"]` of a dict in a dict. -/
def labelsOf : Json → Option Obj
  | .obj o =>
    match Obj.getN o "_centralops" with
    | .obj labels => some labels
    | _ => none
  | _ => none

def optionalText (v : Option String) : Json := (v.map Json.str).getD .null

def nonEmptyField (key : String) (v : Option String) : Obj :=
  ((v.filter (· ≠ "")).map (fun s => (key, Json.str s))).toList

section Entries
variable (lib : RingLibrary)

/-- `_event_vendor`. -/
def eventVendor (ev : Json) : Option String :=
  (labelsOf ev).bind fun labels =>
    match Obj.getN labels "vendor" with
    | .null => none
    | v => some (lib.str v)

/-- `_event_id_of`. -/
def eventIdOf (ev : Json) : Option String :=
  (labelsOf ev).bind fun labels =>
    let eid := Obj.getN labels "event_id"
    if eid.truthy then some (lib.str eid) else none

def strippedText (s : String) : String := String.ofList (pyStrip s.toList)

/-- `_vendor_matches`. -/
def vendorMatches (vfilter : String) (vendor : Option String) : Bool :=
  if vfilter = "" then true
  else vendor.any (fun v => lib.casefold (strippedText v) == lib.casefold vfilter)

/-- The payload of the event at a place of the batch. -/
def entryPayload (args : TapArgs) (idx : Nat) (ev : Json) : RingPayload where
  event := captureRedact lib ev
  rest :=
    let given := args.eventIds.bind (·[idx]?)
    [("vendor", optionalText (eventVendor lib ev)),
      ("captured_at", .float (.finite args.now)),
      ("outcome", .str args.outcome),
      ("stage", .str args.stage),
      ("payload_kind", .str args.payloadKind),
      ("pii_redacted", .bool args.piiRedacted),
      ("event_id", optionalText (given.getD (eventIdOf lib ev)))] ++
    nonEmptyField "destination_kind" args.destinationKind ++
    nonEmptyField "dest_config_version" args.destConfigVersion ++
    ((args.wires.bind (·[idx]?)).join.map (fun wire => ("wire", Json.obj wire))).toList ++
    (args.destinationId.map (fun d => ("destination_id", Json.str d))).toList ++
    nonEmptyField "route_id" args.routeId ++
    nonEmptyField "detail" (args.detail.map fun d => String.ofList (d.toList.take maxDetailChars))

/-- The events that the session listens to, each with its payload. -/
def tappedEvents (m : SessionMeta) (args : TapArgs) (batch : List Json) :
    List (Json × RingPayload) :=
  batch.zipIdx.filterMap fun p =>
    if vendorMatches lib (strippedText (m.vendor.getD "")) (eventVendor lib p.1) then
      some (p.1, entryPayload lib args p.2 p.1)
    else none

/-- `_entries_for`. -/
def entriesFor (m : SessionMeta) (args : TapArgs) (batch : List Json) : List (List Char) :=
  (tappedEvents lib m args batch).map (fun e => dumpsEntry lib (storeEntry lib e.2).payload)

end Entries

end CentralOps
