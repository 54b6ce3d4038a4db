import CentralOps.Config.Rows

namespace CentralOps
set_option autoImplicit true

/-- `ApiError`, by its code, its status and what its messages name. -/
structure ApiError where
  code : String
  status : Nat
  params : Obj := []

/-- A place in a request's body and what is wrong there. -/
structure FieldError where
  field : String
  message : String
  deriving DecidableEq

inductive ConfigError where
  | api (e : ApiError)
  | invalid (errors : List FieldError)
  | forbidden (detail : String)
  | db (e : DbError)

/-- The response of an endpoint and the database that it leaves. -/
abbrev Response (α : Type) := Except ConfigError α × ConfigDb

def refuse (db : ConfigDb) (code : String) (status : Nat) (params : Obj := []) : Response α :=
  (.error (.api ⟨code, status, params⟩), db)

structure Caller where
  user : AppUser
  tokenScopes : List String := []

/-- Of the roles, only the administrator's has `user.manage`. -/
def Caller.isAdmin (c : Caller) : Bool :=
  decide (c.user.role = "admin") &&
    (c.tokenScopes.isEmpty || c.tokenScopes.contains "user.manage")

/-- `require_admin_user` before an endpoint. -/
def requireAdminUser (c : Caller) (db : ConfigDb) (endpoint : AppUser → ConfigDb → Response α) :
    Response α :=
  if c.isAdmin then endpoint c.user db else (.error (.forbidden "Admin access required"), db)

/-- `_resolve_scope`. -/
def resolveScope (user : AppUser) : Bool × Option Int :=
  let isGlobal := hasGlobalScope user
  (isGlobal, if isGlobal then none else user.organizationId)

/-- `can_access_subtree` with the flat resolver. -/
def canAccessSubtree (user : AppUser) (organizationId : Int) : Bool :=
  hasGlobalScope user || decide (user.organizationId = some organizationId)

/-- `RouteRead`, without the times. -/
structure RouteRead where
  id : String
  name : String
  settings : RouteSettings
  organizationId : Option Int
  unreachable : Bool := false

def rowToRead (r : RouteRecord) : RouteRead where
  id := r.id
  name := r.name
  settings := r.settings
  organizationId := r.organizationId

section Fields
variable (rt : Runtime)

def lengthErrors (field : String) (low high : Nat) (s : String) : List FieldError :=
  if s.length < low then
    [⟨field, "String should have at least " ++ low.repr ++ " character"⟩]
  else if high < s.length then
    [⟨field, "String should have at most " ++ high.repr ++ " characters"⟩]
  else []

def geError (field : String) (low n : Int) : List FieldError :=
  if n < low then [⟨field, "Input should be greater than or equal to " ++ low.repr⟩] else []

def leError (field : String) (high n : Int) : List FieldError :=
  if high < n then [⟨field, "Input should be less than or equal to " ++ high.repr⟩] else []

def gtError (field : String) (low n : Int) : List FieldError :=
  if n ≤ low then [⟨field, "Input should be greater than " ++ low.repr⟩] else []

def valueError (field : String) : Option String → List FieldError
  | none => []
  | some message => [⟨field, "Value error, " ++ message⟩]

def strippedName (name : String) : String := String.ofList (pyStrip name.toList)

def nameErrors (name : String) : List FieldError :=
  let errors := lengthErrors "name" 1 255 name
  if errors = [] then
    valueError "name" (if strippedName name = "" then some "name must not be empty" else none)
  else errors

/-- The checks of the fields of a body, of those that are sent. -/
def RouteChanges.errors (u : RouteChanges) : List FieldError :=
  u.name.elim [] nameErrors ++
    u.condition.elim [] (fun c => valueError "condition" (validateCondition rt c)) ++
    u.action.elim [] (fun a => if a = "route" ∨ a = "drop" then []
      else [⟨"action", "Input should be 'route' or 'drop'"⟩]) ++
    u.priority.elim [] (fun n => geError "priority" 0 n ++ leError "priority" 1000000 n) ++
    u.canaryPercent.elim []
      (fun n => geError "canary_percent" 0 n ++ leError "canary_percent" 100 n) ++
    u.piiRedaction.elim [] (fun v => valueError "pii_redaction" (validatePiiRedaction rt v)) ++
    u.samplePercent.elim []
      (fun n => geError "sample_percent" 0 n ++ leError "sample_percent" 100 n) ++
    u.suppressKey.elim [] (fun k => valueError "suppress_key" (validateSuppressKey rt k)) ++
    u.suppressAllow.elim [] (geError "suppress_allow" 0) ++
    u.suppressWindowS.elim [] (gtError "suppress_window_s" 0)

def RouteChanges.stripped (u : RouteChanges) : RouteChanges :=
  { u with name := u.name.map strippedName }

structure RouteCreate where
  name : String
  settings : RouteSettings
  organizationId : Option Int := none

/-- `_validate_action_destinations`. -/
def actionErrors (s : RouteSettings) : List FieldError :=
  if s.action = "route" ∧ s.destinationIds = [] then
    valueError "" (some "action 'route' requires at least one destination_id")
  else if s.action = "drop" ∧ s.destinationIds ≠ [] then
    valueError "" (some "action 'drop' must not have destination_ids")
  else []

def RouteCreate.errors (p : RouteCreate) : List FieldError :=
  let errors := RouteChanges.errors rt { RouteChanges.ofSettings p.settings with name := p.name }
  if errors = [] then actionErrors p.settings else errors

end Fields

/-- `_assert_visible`; what an organization cannot see is not found. -/
def assertVisible (row : Option RouteRecord) (user : AppUser) : Except ApiError RouteRecord :=
  match row with
  | none => .error ⟨"route.not_found", 404, []⟩
  | some r =>
    if r.organizationId.all (canAccessSubtree user) then .ok r
    else .error ⟨"route.not_found", 404, []⟩

/-- `_assert_mutable`; a global route is for platform administrators. -/
def assertMutable (row : Option RouteRecord) (user : AppUser) : Except ApiError RouteRecord :=
  match assertVisible row user with
  | .error e => .error e
  | .ok r =>
    if !hasGlobalScope user && r.organizationId.isNone then
      .error ⟨"route.global_requires_platform_admin", 403, []⟩
    else .ok r

/-- `_validate_destinations_exist`: the first that the caller cannot see. -/
def validateDestinationsExist (db : ConfigDb) (destIds : List String) (callerOrg : Option Int)
    (isGlobal : Bool) : Option ApiError :=
  destIds.findSome? fun did =>
    if (DestinationRepository.get db did).any
        (fun d => visibleTo callerOrg isGlobal d.row.organizationId) then none
    else some ⟨"route.destination_not_found", 422, [("destination_id", .str did)]⟩

/-- The response of a committed statement. -/
def answer (db : ConfigDb) (read : α → β) : Except DbError (α × ConfigDb) → Response β
  | .error e => (.error (.db e), db)
  | .ok (row, db) => (.ok (read row), db)

def answerFound (db : ConfigDb) : Except DbError (Option RouteRecord × ConfigDb) →
    Response RouteRead
  | .error e => (.error (.db e), db)
  | .ok (none, db) => refuse db "route.not_found" 404
  | .ok (some r, db) => (.ok (rowToRead r), db)

section Endpoints
variable (env : ConfigEnv) (user : AppUser) (db : ConfigDb)

def createdOrg (requested : Option Int) : Option Int :=
  let (isGlobal, callerOrg) := resolveScope user
  if !isGlobal && requested.isNone && callerOrg.isSome then callerOrg else requested

def createRoute (p : RouteCreate) : Response RouteRead :=
  let (isGlobal, callerOrg) := resolveScope user
  if p.errors env.rt ≠ [] then (.error (.invalid (p.errors env.rt)), db)
  else if !isGlobal && p.organizationId.isSome && decide (p.organizationId ≠ callerOrg) then
    refuse db "route.cross_org_create_denied" 403
  else
    match validateDestinationsExist db p.settings.destinationIds callerOrg isGlobal with
    | some e => (.error (.api e), db)
    | none =>
      answer db rowToRead (RouteRepository.add env db (strippedName p.name) p.settings
        (createdOrg user p.organizationId) user.username)

def effectiveError (action : String) (destinationIds : List String) : Option ApiError :=
  if action = "route" ∧ destinationIds = [] then
    some ⟨"route.action_route_requires_destination", 422, []⟩
  else if action = "drop" ∧ destinationIds ≠ [] then
    some ⟨"route.action_drop_forbids_destination", 422, []⟩
  else none

def updateRoute (routeId : String) (u : RouteChanges) : Response RouteRead :=
  let (isGlobal, callerOrg) := resolveScope user
  if u.errors env.rt ≠ [] then (.error (.invalid (u.errors env.rt)), db)
  else
    match assertMutable (RouteRepository.get db routeId) user with
    | .error e => (.error (.api e), db)
    | .ok existing =>
      if u.organizationId.any (fun org => !isGlobal && decide (org ≠ callerOrg)) then
        refuse db "route.cross_org_update_denied" 403
      else
        match (effectiveError (u.action.getD existing.settings.action)
            (u.destinationIds.getD existing.settings.destinationIds)).or
            (validateDestinationsExist db (u.destinationIds.getD []) callerOrg isGlobal) with
        | some e => (.error (.api e), db)
        | none =>
          answerFound db
            (RouteRepository.update env db routeId u.stripped user.username "updated")

def deleteRoute (routeId : String) : Response Unit :=
  match assertMutable (RouteRepository.get db routeId) user with
  | .error e => (.error (.api e), db)
  | .ok _ => (.ok (), (RouteRepository.delete env db routeId user.username).2)

def routeIdsErrors (routeIds : List String) : List FieldError :=
  if routeIds = [] then
    [⟨"route_ids", "List should have at least 1 item after validation, not 0"⟩]
  else if 500 < routeIds.length then
    [⟨"route_ids", "List should have at most 500 items after validation, not " ++
      routeIds.length.repr⟩]
  else []

def reorderRoutes (routeIds : List String) : Response (List RouteRead) :=
  let (isGlobal, callerOrg) := resolveScope user
  if routeIdsErrors routeIds ≠ [] then (.error (.invalid (routeIdsErrors routeIds)), db)
  else
    match RouteRepository.reorderRoutes env db routeIds callerOrg isGlobal user.username with
    | .error (.notFound message) => refuse db "route.not_found" 404 [("error", .str message)]
    | .error (.outside message) =>
      refuse db "route.cross_org_reorder_denied" 403 [("error", .str message)]
    | .ok (rows, db) => (.ok (rows.map rowToRead), db)

def snapshotError (s : RouteSettings) : Option ApiError :=
  ((if s.piiRedaction.truthy then validatePiiRedaction env.rt s.piiRedaction else none).map
      (fun m => ⟨"route.snapshot_pii_redaction_invalid", 422, [("error", .str m)]⟩)).or
    (((validateSuppressKey env.rt s.suppressKey).map
        (fun m => ⟨"route.snapshot_suppress_key_invalid", 422, [("error", .str m)]⟩)).or
      ((validateCondition env.rt s.condition).map
        (fun m => ⟨"route.snapshot_condition_invalid", 422, [("error", .str m)]⟩)))

def snapshotChanges : Option RouteRecord → RouteChanges
  | none => {}
  | some r => { RouteChanges.ofSettings r.settings with name := r.name }

def snapshotDestinations (snap : Option RouteRecord) : List String :=
  match snap with
  | none => []
  | some r => if r.settings.action = "route" then r.settings.destinationIds else []

def rollbackRoute (routeId auditId : String) : Response RouteRead :=
  let (isGlobal, callerOrg) := resolveScope user
  match assertMutable (RouteRepository.get db routeId) user with
  | .error e => (.error (.api e), db)
  | .ok _ =>
    match RouteRepository.getAudit db auditId with
    | none => refuse db "route.audit_not_found" 404
    | some entry =>
      if entry.routeId ≠ routeId then refuse db "route.audit_not_found" 404
      else
        match (validateDestinationsExist db (snapshotDestinations entry.snapshot) callerOrg
            isGlobal).or (entry.snapshot.bind (fun r => snapshotError env r.settings)) with
        | some e => (.error (.api e), db)
        | none =>
          answerFound db (RouteRepository.update env db routeId (snapshotChanges entry.snapshot)
            user.username "rolled_back")

end Endpoints

end CentralOps
