import CentralOps.Routing.Engine

namespace CentralOps
set_option autoImplicit true

/-- A JSON text column: null or empty, not decodable, or a decoded value. -/
inductive JsonText (α : Type) where
  | empty
  | corrupt
  | stored (v : α)

/-- `json.loads(column or default)`. -/
def JsonText.loads (fallback : α) : JsonText α → Except String α
  | .empty => .ok fallback
  | .corrupt => .error "JSONDecodeError"
  | .stored v => .ok v

structure DestinationRow where
  id : String
  kind : String
  enabled : Bool := true
  config : JsonText Json
  organizationId : Option Int := none
  dataResidency : Option String := none
  isDefault : Bool := false

structure IntegrationRow where
  platform : String
  apiHost : Option String := none
  baseUrl : Option String := none
  indexerUrl : Option String := none
  managerUrl : Option String := none

structure RouteRow where
  id : String
  name : String := ""
  priority : Int
  condition : JsonText Obj
  action : String
  destinationIds : JsonText (List String)
  isFinal : Bool
  enabled : Bool := true
  organizationId : Option Int := none
  canaryPercent : Option Int := none
  protectDetection : Option Bool := none
  samplePercent : Option Int := none
  suppressKey : Option String := none
  suppressAllow : Option Int := none
  suppressWindowS : Option Int := none
  piiRedaction : JsonText Json
  dropRaw : Option Bool := none

structure Database where
  destinations : List DestinationRow := []
  integrations : List IntegrationRow := []
  routes : List RouteRow := []

/-- The settings the collection pipeline reads. -/
structure Settings where
  piiRedactionEnabled : Bool := false
  reductionSampleEnabled : Bool := false
  costMeteringEnabled : Bool := false
  reductionSampleProtectDetection : Bool := true
  reductionAggregateEnabled : Bool := false

section Routes
variable (rt : Runtime) (settings : Settings)

def piiRedactionOff : String :=
  "rota tem pii_redaction mas PII_REDACTION_ENABLED=OFF — fail-closed"

/-- Fail-closed: a spec that cannot be compiled, or must not be used, raises. -/
def compileRowRedaction (row : RouteRow) : Except String (List CompiledRedactionRule) :=
  match row.piiRedaction with
  | .empty => .ok []
  | spec =>
    if !settings.piiRedactionEnabled then .error piiRedactionOff
    else do compilePiiRedaction rt (← spec.loads .null)

/-- The row's route with the given rules. -/
def buildRoute (row : RouteRow) (redaction : List CompiledRedactionRule) :
    Except String CompiledRoute := do
  let condition ← row.condition.loads []
  let destinationIds ← row.destinationIds.loads []
  return {
    id := row.id
    name := row.name
    priority := row.priority
    condition := condition
    action := if row.action = "drop" then .drop else .route
    destinationIds := destinationIds
    isFinal := row.isFinal
    enabled := row.enabled
    canaryPercent := row.canaryPercent.getD 100
    protectDetection := row.protectDetection.getD true
    samplePercent := row.samplePercent.getD 100
    suppressKey := row.suppressKey.filter (fun k => k ≠ "")
    suppressAllow := row.suppressAllow.getD 0
    suppressWindowS := row.suppressWindowS.getD 30
    redaction := redaction
    dropRaw := row.dropRaw.getD false }

def compileRouteRow (row : RouteRow) : Except String CompiledRoute := do
  buildRoute row (← compileRowRedaction rt settings row)

def rowLe (r s : RouteRow) : Prop :=
  r.priority < s.priority ∨ r.priority = s.priority ∧ ¬ s.id < r.id

instance : DecidableRel rowLe := fun r s =>
  inferInstanceAs (Decidable (r.priority < s.priority ∨ r.priority = s.priority ∧ ¬ s.id < r.id))

/-- Enabled routes of the organisation or global ones, by priority. -/
def listEnabledForOrg (rows : List RouteRow) (orgId : Option Int) : List RouteRow :=
  (rows.filter (fun r => r.enabled &&
    (decide (r.organizationId = orgId) || decide (r.organizationId = none)))).insertionSort rowLe

def loadRoutesForOrg (db : Database) (orgId : Option Int) : List CompiledRoute :=
  match (listEnabledForOrg db.routes orgId).mapM (compileRouteRow rt settings) with
  | .ok routes => routes
  | .error _ => []

end Routes

section Destinations
variable (rt : Runtime) (db : Database)

def loadDestinationResidency (destIds : List String) : Dict String (Option String) :=
  (db.destinations.filter (fun r => destIds.contains r.id)).foldl
    (fun m r => m.set r.id (r.dataResidency.filter (fun z => z ≠ ""))) .empty

def syslogDestKinds : List String := ["syslog_rfc3164", "syslog_rfc5424"]

/-- `v.split("://", 1)[1]`, or `v` without a scheme. -/
def dropScheme (v : List Char) : List Char :=
  match v.tails.find? (fun t => "://".toList.isPrefixOf t) with
  | some t => t.drop 3
  | none => v

def bareHost (value : Json) : Option String :=
  if !value.truthy then none
  else
    let v := dropScheme (pyStrip (rt.str value).toList)
    let v := v.takeWhile (fun c => c ≠ '/')
    let v := if '@' ∈ v then (v.reverse.takeWhile (fun c => c ≠ '@')).reverse else v
    let v := match v with
      | '[' :: inside => inside.takeWhile (fun c => c ≠ ']')
      | v => if v.count ':' = 1 then v.takeWhile (fun c => c ≠ ':') else v
    let host := rt.lower (String.ofList v)
    if host = "" then none else some host

def columnHost (value : Option String) : Option String :=
  bareHost rt ((value.map Json.str).getD .null)

def wazuhHosts : List String :=
  (db.integrations.filter (fun r => r.platform = "wazuh")).flatMap (fun r =>
    [columnHost rt r.apiHost, columnHost rt r.baseUrl, columnHost rt r.indexerUrl,
      columnHost rt r.managerUrl].filterMap id)

/-- The host of a destination's configuration. The outer `none` is the `AttributeError` of a
configuration that is JSON but neither empty nor an object. -/
def configHost (row : DestinationRow) : Option (Option String) :=
  match row.config with
  | .empty | .corrupt => some none
  | .stored (.obj o) => some (bareHost rt (Obj.getN o "host"))
  | .stored v => if v.truthy then none else some none

def loopsToWazuh (row : DestinationRow) : Bool :=
  match configHost rt row with
  | some (some host) => (wazuhHosts rt db).contains host
  | _ => false

def syslogRows (destIds : List String) : List DestinationRow :=
  db.destinations.filter (fun r => destIds.contains r.id && syslogDestKinds.contains r.kind)

def loadWazuhLoopDestinationIds (destIds : List String) : List String :=
  if destIds.isEmpty || (wazuhHosts rt db).isEmpty then []
  else if (syslogRows db destIds).any (fun r => (configHost rt r).isNone) then []
  else ((syslogRows db destIds).filter (loopsToWazuh rt db)).map DestinationRow.id

def defaultOf (scope : Option Int) : Option String :=
  ((db.destinations.find? (fun r => r.isDefault && decide (r.organizationId = scope))).map
    DestinationRow.id).filter (fun i => i ≠ "")

/-- The organisation's own default, else the global one. -/
def loadFallbackDestinationId (orgId : Option Int) : Option String :=
  match orgId with
  | none => defaultOf db none
  | some org => (defaultOf db (some org)).or (defaultOf db none)

end Destinations

/-- An `organization_id` label as an organisation: integers, integral floats and decimal
strings, never a `bool`. -/
def coerceOrgId (rt : Runtime) : Json → Option Int
  | .int n => some n
  | .float (.finite q) => if q.den = 1 then some q.num else none
  | .str s => rt.int (String.ofList (pyStrip s.toList))
  | _ => none

/-- The organisation of a batch is read off its first envelope. -/
def batchOrgId (rt : Runtime) (batch : List Obj) : Option Int :=
  match batch with
  | [] => none
  | env :: _ => coerceOrgId rt ((eventLabels env).getN "organization_id")

end CentralOps
