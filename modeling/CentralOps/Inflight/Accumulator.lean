import CentralOps.Lib.Ledger
import CentralOps.Inflight.Compile

namespace CentralOps
set_option autoImplicit true

/-- The library as this subsystem sees it: the mapping engine's, and the digest of a group value. -/
structure InflightRuntime extends MappingRuntime where
  groupValueDigest : String → String

/-- The reasons of `count_error` that the accumulator, the flush and the tick use. -/
inductive ErrorReason where
  | groupByUnresolved | groupValueTruncated | keyCap
  | sequenceUnavailable | sequenceBelow | windowUnavailable | windowBelow
  | flushCap | flushLost | absenceUnavailable | absenceKeyCap
  deriving DecidableEq

/-- What waits under a dedup key for the flush. -/
structure PendingItem where
  rule : CompiledInflightRule
  integrationId : Option Int
  source : Obj
  hits : Nat := 1
  token : String
  /-- The pointer of each leg seen in the cycle. -/
  legs : List (Nat × Obj) := []
  deriving DecidableEq

abbrev Pending := Dict String PendingItem

structure InflightAccumulator where
  pending : Pending := .empty
  /-- `matches`: the matched events of each rule. -/
  hitsPerRule : Dict Int Nat := .empty
  errors : Ledger ErrorReason Int := .empty
  overflow : Dict Int Nat := .empty
  keysPerRule : Dict Int Nat := .empty
  absenceRules : List (Int × CompiledInflightRule) := []

namespace InflightAccumulator

def noteRules (acc : InflightAccumulator) (rules : List CompiledInflightRule) :
    InflightAccumulator :=
  let watched := rules.filter (fun rule => rule.absence)
  { acc with
    absenceRules := Assoc.collect (fun rule => some (rule.ruleId, rule)) acc.absenceRules watched }

def countError (acc : InflightAccumulator) (reason : ErrorReason) (ruleId : Int) (amount : Nat) :
    InflightAccumulator :=
  { acc with errors := acc.errors.charge reason ruleId amount }

end InflightAccumulator

section Pointer
variable (rt : InflightRuntime)

def evidenceTextMaxlen : Nat := 120

/-- `_evidence_text`. -/
def evidenceText (v : Json) : Except PyError Json :=
  if v = .null then .ok .null
  else do
    let text ← documents.str rt.toMappingRuntime () v
    if text.length ≤ evidenceTextMaxlen then .ok (.str text)
    else .ok (.str (String.ofList (text.toList.take evidenceTextMaxlen) ++ "…"))

def evidenceOption (text : Option String) : Except PyError Json :=
  match text with
  | some s => evidenceText rt (.str s)
  | none => .ok .null

def detectionEventType : String := "centralops.inflight.detection"

def markedAsDetection (v : Json) : Bool :=
  decide (v.asObj.getN "event_type" = .str detectionEventType)

/-- `_is_self_emitted`. -/
def isSelfEmitted (envelope : Obj) : Bool :=
  let raw := (envelope.getN "raw").asObj
  markedAsDetection (envelope.getN "_centralops") || markedAsDetection (raw.getN "_centralops") ||
    ((raw.getN "unmapped").asObj.getN "centralops_detection").truthy

def numberOrNull : Json → Json
  | .int n => .int n
  | .float x => .float x
  | _ => .null

def intOrNull : Json → Json
  | .int n => .int n
  | _ => .null

/-- `_event_source_pointer`: where the matched event can be found, not the event itself. -/
def eventSourcePointer (envelope : Obj) (groupPath : Option (List String))
    (groupValue : Option String) : Except PyError Obj := do
  let info := (envelope.getN "_centralops").asObj
  let norm := (envelope.getN "normalized").asObj
  let field (name : String) : Except PyError (String × Json) := do
    .ok (name, ← evidenceText rt (info.getN name))
  let labels ← ["event_id", "vendor", "platform", "stream", "event_type"].mapM field
  let tenant ← ["customer_name", "organization_slug", "data_geography"].mapM field
  let groupField ← evidenceOption rt (groupPath.map (fun path => ".".intercalate path))
  let groupValue ← evidenceOption rt groupValue
  .ok (labels ++
    [("event_time", numberOrNull (norm.getN "time")),
      ("event_class_uid", intOrNull (norm.getN "class_uid"))] ++
    tenant ++
    [("group_field", groupField), ("group_value", groupValue),
      ("self_emitted", .bool (isSelfEmitted envelope))])

end Pointer

def groupToken (rt : InflightRuntime) (cfg : InflightSettings) (value : String) : String :=
  if value.length ≤ cfg.maxGroupValueLen then value
  else String.ofList (value.toList.take cfg.maxGroupValueLen) ++ "~" ++ rt.groupValueDigest value

def inflightKey (organizationId : Int) (rule : CompiledInflightRule) (token : String) : String :=
  "inflight:" ++ toString organizationId ++ ":" ++ toString rule.ruleId ++
    (if rule.legIndex.isSome then ":seq:" else ":") ++ token

/-- The same key again in the cycle. -/
def PendingItem.hit (item : PendingItem) : PendingItem := { item with hits := item.hits + 1 }

def PendingItem.addLeg (item : PendingItem) (index : Nat) (pointer : Obj) : PendingItem :=
  { item with legs := item.legs ++ [(index, pointer)] }

namespace InflightAccumulator

/-- What a call leaves of the accumulator, and the exception that ended it. -/
abbrev AddResult := InflightAccumulator × Option PyError

def withPointer (acc : InflightAccumulator) (pointer : Except PyError Obj)
    (f : Obj → InflightAccumulator) : AddResult :=
  match pointer with
  | .ok p => (f p, none)
  | .error e => (acc, some e)

variable (rt : InflightRuntime) (cfg : InflightSettings)

def addAgain (acc : InflightAccumulator) (rule : CompiledInflightRule) (key : String)
    (item : PendingItem) (pointer : Except PyError Obj) : AddResult :=
  let acc := { acc with pending := acc.pending.set key item.hit }
  match rule.legIndex with
  | none => (acc, none)
  | some index =>
    if (item.legs.lookup index).isSome then (acc, none)
    else withPointer acc pointer (fun p =>
      { acc with pending := acc.pending.set key (item.hit.addLeg index p) })

def addNew (acc : InflightAccumulator) (rule : CompiledInflightRule) (key token : String)
    (integrationId : Option Int) (pointer : Except PyError Obj) : AddResult :=
  let keyCap := rule.maxDedupKeys.getD cfg.maxDedupKeysPerRulePerCycle
  if keyCap ≤ (acc.keysPerRule.get? rule.ruleId).getD 0 then
    ({ acc with overflow := acc.overflow.bump rule.ruleId 1 }.countError .keyCap rule.ruleId 1,
      none)
  else
    let acc := { acc with keysPerRule := acc.keysPerRule.bump rule.ruleId 1 }
    let item (source : Obj) : PendingItem :=
      { rule := rule
        integrationId := integrationId
        source := source
        token := token
        legs := rule.legIndex.toList.map (fun index => (index, source)) }
    withPointer acc pointer (fun p => { acc with pending := acc.pending.set key (item p) })

def addToken (acc : InflightAccumulator) (rule : CompiledInflightRule) (envelope : Obj)
    (organizationId : Int) (integrationId : Option Int) (token : String)
    (groupValue : Option String) : AddResult :=
  let key := inflightKey organizationId rule token
  let pointer := eventSourcePointer rt envelope rule.groupByPath groupValue
  match acc.pending.get? key with
  | some item => addAgain acc rule key item pointer
  | none => addNew cfg acc rule key token integrationId pointer

/-- `add`: one event that a rule matched. -/
def add (acc : InflightAccumulator) (rule : CompiledInflightRule) (envelope : Obj)
    (organizationId : Int) (integrationId : Option Int) : AddResult :=
  let acc := { acc with hitsPerRule := acc.hitsPerRule.bump rule.ruleId 1 }
  match rule.groupByPath with
  | none => addToken rt cfg acc rule envelope organizationId integrationId "*" none
  | some path =>
    match getPath (.obj envelope) path with
    | .null => (acc.countError .groupByUnresolved rule.ruleId 1, none)
    | v =>
      match documents.str rt.toMappingRuntime () v with
      | .error e => (acc, some e)
      | .ok value =>
        let acc := if value.length ≤ cfg.maxGroupValueLen then acc
          else acc.countError .groupValueTruncated rule.ruleId 1
        addToken rt cfg acc rule envelope organizationId integrationId (groupToken rt cfg value)
          (some value)

end InflightAccumulator

end CentralOps
