import CentralOps.Config.Routes
import CentralOps.Lib.Batch

namespace CentralOps
set_option autoImplicit true

def bundleVersion : String := "1.0"

/-- `DestinationRead`, without the times. -/
structure DestinationRead where
  id : String
  name : String
  kind : String
  enabled : Bool
  config : Obj
  delivery : Obj
  configVersion : String
  organizationId : Option Int
  hasSecret : Bool := false
  dataResidency : Option String := none
  isDefault : Bool := false

structure ConfigBundle where
  version : String := bundleVersion
  exportedAt : Int
  organizationId : Option Int := none
  destinations : List DestinationRead := []
  routes : List RouteRead := []

structure ImportRequest where
  bundle : ConfigBundle
  secrets : List (String × String) := []
  dryRun : Bool := true

/-- An entry of the diff: created, updated or unchanged. -/
structure ConfigDiff where
  name : String
  status : String
  id : Option String := none
  deriving DecidableEq

structure ImportResult where
  dryRun : Bool
  destinations : List ConfigDiff
  routes : List ConfigDiff
  deriving DecidableEq

/-- `_dest_row_to_read`. -/
def destRowToRead (r : DestinationRecord) : DestinationRead where
  id := r.id
  name := r.row.name
  kind := r.row.kind
  enabled := r.row.enabled
  config := r.row.config
  delivery := r.row.delivery
  configVersion := r.row.configVersion
  organizationId := r.row.organizationId
  hasSecret := r.row.secretRef.isSome

/-- `_route_row_to_read`. -/
def routeRowToRead (r : RouteRecord) : RouteRead where
  id := r.id
  name := r.name
  settings := r.settings
  organizationId := r.organizationId

/-- `export_config`. -/
def exportConfig (env : ConfigEnv) (user : AppUser) (db : ConfigDb) : ConfigBundle :=
  let (isGlobal, callerOrg) := resolveScope user
  { exportedAt := env.now
    organizationId := callerOrg
    destinations := (DestinationRepository.list db callerOrg isGlobal 1000).map destRowToRead
    routes := (RouteRepository.list db callerOrg isGlobal 1000).map routeRowToRead }

def destByName (db : ConfigDb) (name : String) (orgId : Option Int) (globalScope : Bool) :
    Option DestinationRecord :=
  (DestinationRepository.list db orgId globalScope 1000).find? (fun r => decide (r.row.name = name))

def routeByName (db : ConfigDb) (name : String) (orgId : Option Int) (globalScope : Bool) :
    Option RouteRecord :=
  (RouteRepository.list db orgId globalScope 1000).find? (fun r => decide (r.name = name))

def jsonInt : Option Int → Json
  | none => .null
  | some n => .int n

/-- `_validate_bundle_org_scope`. -/
def validateBundleOrgScope (bundleOrg : Option Int) (isGlobal : Bool) (callerOrg : Option Int) :
    Option ApiError :=
  if isGlobal then none
  else if bundleOrg.isSome && decide (bundleOrg ≠ callerOrg) then
    some ⟨"config_bundle.org_mismatch", 403,
      [("bundle_org", jsonInt bundleOrg), ("caller_org", jsonInt callerOrg)]⟩
  else none

/-- `_validate_route_read`. -/
def validateRouteRead (rt : Runtime) (route : RouteRead) : Option ApiError :=
  let named (code : String) (more : Obj) : ApiError :=
    ⟨code, 422, ("route_name", .str route.name) :: more⟩
  let s := route.settings
  ((validateCondition rt s.condition).map
      (fun m => named "config_bundle.invalid_route_condition" [("error", .str m)])).or <|
    ((if s.piiRedaction = .null then none else validatePiiRedaction rt s.piiRedaction).map
      (fun m => named "config_bundle.invalid_route_pii_redaction" [("error", .str m)])).or <|
    ((validateSuppressKey rt s.suppressKey).map
      (fun m => named "config_bundle.invalid_route_suppress_key" [("error", .str m)])).or <|
    if s.action = "route" ∧ s.destinationIds = [] then
      some (named "config_bundle.route_requires_destination" [])
    else if s.action = "drop" ∧ s.destinationIds ≠ [] then
      some (named "config_bundle.drop_must_not_have_destinations" [])
    else none

def encryptSecrets (env : ConfigEnv) : List (String × String) →
    Except ApiError (List (String × String))
  | [] => .ok []
  | (destName, plaintext) :: secrets =>
    match env.encrypt plaintext with
    | .error errorType =>
      .error ⟨"config_bundle.secret_encryption_failed", 422,
        [("dest_name", .str destName), ("error_type", .str errorType)]⟩
    | .ok secretRef =>
      match encryptSecrets env secrets with
      | .error e => .error e
      | .ok rest => .ok ((destName, secretRef) :: rest)

structure ImportScope where
  isGlobal : Bool
  effectiveOrg : Option Int
  secrets : List (String × String)
  dryRun : Bool
  username : String

structure DestinationOutcome where
  diff : ConfigDiff
  destId : Option String

namespace ImportScope
variable (env : ConfigEnv) (c : ImportScope) (db : ConfigDb)

def findDestination (name : String) : Option DestinationRecord :=
  destByName db name c.effectiveOrg c.isGlobal

def findRoute (name : String) : Option RouteRecord := routeByName db name c.effectiveOrg c.isGlobal

def destinationDiffers (existing : DestinationRecord) (dest : DestinationRead) : Bool :=
  !(Json.obj existing.row.config).pyEq (.obj dest.config) ||
    !(Json.obj existing.row.delivery).pyEq (.obj dest.delivery) ||
    decide (existing.row.enabled ≠ dest.enabled) || decide (existing.row.kind ≠ dest.kind) ||
    (c.secrets.lookup dest.name).isSome

def newDestination (dest : DestinationRead) : NewDestination where
  name := dest.name
  kind := dest.kind
  config := dest.config
  delivery := some dest.delivery
  secretRef := c.secrets.lookup dest.name
  organizationId := c.effectiveOrg
  enabled := dest.enabled

def destinationChanges (dest : DestinationRead) : DestinationChanges where
  config := some dest.config
  delivery := some dest.delivery
  enabled := some dest.enabled
  secretRef := (c.secrets.lookup dest.name).map some

def importDestination (dest : DestinationRead) :
    Except DbError (DestinationOutcome × ConfigDb) :=
  match c.findDestination db dest.name with
  | none =>
    if c.dryRun then .ok (⟨⟨dest.name, "created", none⟩, none⟩, db)
    else
      match DestinationRepository.add env db (c.newDestination dest) none with
      | .error e => .error e
      | .ok (r, db) => .ok (⟨⟨dest.name, "created", none⟩, some r.id⟩, db)
  | some existing =>
    if c.destinationDiffers existing dest then
      if c.dryRun then .ok (⟨⟨dest.name, "updated", some existing.id⟩, some existing.id⟩, db)
      else
        match DestinationRepository.update env db existing.id (c.destinationChanges dest) none with
        | .error e => .error e
        | .ok (_, db) => .ok (⟨⟨dest.name, "updated", some existing.id⟩, some existing.id⟩, db)
    else .ok (⟨⟨dest.name, "unchanged", some existing.id⟩, some existing.id⟩, db)

/-- `name_to_dest_id`. -/
def nameToDestId (outcomes : List DestinationOutcome) : List (String × String) :=
  outcomes.filterMap (fun o => o.destId.map (fun id => (o.diff.name, id)))

/-- An id that is known in the repository or in this import is used as it is, and so is one that
could not be resolved. -/
def resolveDestId (names : List (String × String)) (did : String) : String :=
  if did = "wazuh-default" then did
  else if (DestinationRepository.get db did).isSome then did
  else if did ∈ names.map Prod.snd then did
  else did

def routeDiffers (existing s : RouteSettings) (resolvedDestIds : List String) : Bool :=
  !(Json.obj existing.condition).pyEq (.obj s.condition) ||
    decide (existing.destinationIds ≠ resolvedDestIds) || decide (existing.action ≠ s.action) ||
    decide (existing.isFinal ≠ s.isFinal) || decide (existing.priority ≠ s.priority) ||
    decide (existing.enabled ≠ s.enabled) || decide (existing.canaryPercent ≠ s.canaryPercent) ||
    decide (existing.protectDetection ≠ s.protectDetection) ||
    decide (existing.dropRaw ≠ s.dropRaw) || decide (existing.samplePercent ≠ s.samplePercent) ||
    decide (existing.suppressKey ≠ s.suppressKey) ||
    decide (existing.suppressAllow ≠ s.suppressAllow) ||
    decide (existing.suppressWindowS ≠ s.suppressWindowS) ||
    decide (existing.transformRef ≠ s.transformRef) || !existing.piiRedaction.pyEq s.piiRedaction

def importRoute (names : List (String × String)) (route : RouteRead) :
    Except DbError (ConfigDiff × ConfigDb) :=
  let resolvedDestIds := route.settings.destinationIds.map (resolveDestId db names)
  let settings := { route.settings with destinationIds := resolvedDestIds }
  match c.findRoute db route.name with
  | none =>
    if c.dryRun then .ok (⟨route.name, "created", none⟩, db)
    else
      match RouteRepository.add env db route.name settings c.effectiveOrg c.username with
      | .error e => .error e
      | .ok (_, db) => .ok (⟨route.name, "created", none⟩, db)
  | some existing =>
    if routeDiffers existing.settings route.settings resolvedDestIds then
      if c.dryRun then .ok (⟨route.name, "updated", some existing.id⟩, db)
      else
        match RouteRepository.update env db existing.id (.ofSettings settings) c.username
          "imported" with
        | .error e => .error e
        | .ok (_, db) => .ok (⟨route.name, "updated", some existing.id⟩, db)
    else .ok (⟨route.name, "unchanged", some existing.id⟩, db)

end ImportScope

/-- The scope of an import, unless it is rejected before any entry is looked at. -/
def importScope (env : ConfigEnv) (user : AppUser) (req : ImportRequest) :
    Except ApiError ImportScope :=
  let (isGlobal, callerOrg) := resolveScope user
  match (validateBundleOrgScope req.bundle.organizationId isGlobal callerOrg).or
      (req.bundle.routes.findSome? (validateRouteRead env.rt)) with
  | some e => .error e
  | none =>
    match encryptSecrets env req.secrets with
    | .error e => .error e
    | .ok secrets =>
      .ok
        { isGlobal := isGlobal
          effectiveOrg := if isGlobal then req.bundle.organizationId else callerOrg
          secrets := secrets
          dryRun := req.dryRun
          username := user.username }

/-- `import_config`. -/
def importConfig (env : ConfigEnv) (user : AppUser) (db : ConfigDb) (req : ImportRequest) :
    Response ImportResult :=
  match importScope env user req with
  | .error e => (.error (.api e), db)
  | .ok c =>
    match runBatch (c.importDestination env) req.bundle.destinations db with
    | (.error e, db) => (.error (.db e), db)
    | (.ok outcomes, db) =>
      match runBatch (fun db route => c.importRoute env db (ImportScope.nameToDestId outcomes) route)
          req.bundle.routes db with
      | (.error e, db) => (.error (.db e), db)
      | (.ok routes, db) =>
        (.ok ⟨req.dryRun, outcomes.map DestinationOutcome.diff, routes⟩, db)

end CentralOps
