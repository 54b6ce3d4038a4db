import CentralOps.Delivery.DestinationCache
import CentralOps.Lib.KeyedRows
import CentralOps.Routing.Validation
import Mathlib.Algebra.Order.BigOperators.Group.List

namespace CentralOps
set_option autoImplicit true

structure AppUser where
  username : String
  role : String
  organizationId : Option Int
  isGlobal : Bool

def hasGlobalScope (user : AppUser) : Bool :=
  if user.role = "admin" then user.isGlobal || user.organizationId.isNone else user.isGlobal

/-- What a route's condition, action, flags and redaction are. -/
structure RouteSettings where
  priority : Int := 100
  condition : Obj := []
  action : String := "route"
  destinationIds : List String := []
  isFinal : Bool := true
  canaryPercent : Int := 100
  protectDetection : Bool := true
  dropRaw : Bool := false
  samplePercent : Int := 100
  suppressKey : Option String := none
  suppressAllow : Int := 0
  suppressWindowS : Int := 30
  transformRef : Option String := none
  piiRedaction : Json := .null
  enabled : Bool := true
  deriving DecidableEq

/-- The column of a redaction: a specification that says nothing is `NULL`. -/
def storedRedaction (spec : Json) : Json := if spec.truthy then spec.sorted else .null

def RouteSettings.stored (s : RouteSettings) : RouteSettings :=
  { s with condition := sortObj s.condition, piiRedaction := storedRedaction s.piiRedaction }

structure RouteRecord where
  id : String
  name : String
  settings : RouteSettings
  organizationId : Option Int
  deriving DecidableEq

/-- The arguments of a route's `update`; those not sent are `none`. -/
structure RouteChanges where
  name : Option String := none
  priority : Option Int := none
  condition : Option Obj := none
  action : Option String := none
  destinationIds : Option (List String) := none
  isFinal : Option Bool := none
  canaryPercent : Option Int := none
  protectDetection : Option Bool := none
  dropRaw : Option Bool := none
  samplePercent : Option Int := none
  suppressKey : Option (Option String) := none
  suppressAllow : Option Int := none
  suppressWindowS : Option Int := none
  transformRef : Option (Option String) := none
  piiRedaction : Option Json := none
  enabled : Option Bool := none
  organizationId : Option (Option Int) := none

def RouteChanges.ofSettings (s : RouteSettings) : RouteChanges where
  priority := s.priority
  condition := s.condition
  action := s.action
  destinationIds := s.destinationIds
  isFinal := s.isFinal
  canaryPercent := s.canaryPercent
  protectDetection := s.protectDetection
  dropRaw := s.dropRaw
  samplePercent := s.samplePercent
  suppressKey := some s.suppressKey
  suppressAllow := s.suppressAllow
  suppressWindowS := s.suppressWindowS
  transformRef := some s.transformRef
  piiRedaction := s.piiRedaction
  enabled := s.enabled

def RouteSettings.update (s : RouteSettings) (u : RouteChanges) : RouteSettings where
  priority := u.priority.getD s.priority
  condition := (u.condition.map sortObj).getD s.condition
  action := u.action.getD s.action
  destinationIds := u.destinationIds.getD s.destinationIds
  isFinal := u.isFinal.getD s.isFinal
  canaryPercent := u.canaryPercent.getD s.canaryPercent
  protectDetection := u.protectDetection.getD s.protectDetection
  dropRaw := u.dropRaw.getD s.dropRaw
  samplePercent := u.samplePercent.getD s.samplePercent
  suppressKey := u.suppressKey.getD s.suppressKey
  suppressAllow := u.suppressAllow.getD s.suppressAllow
  suppressWindowS := u.suppressWindowS.getD s.suppressWindowS
  transformRef := u.transformRef.getD s.transformRef
  piiRedaction := (u.piiRedaction.map storedRedaction).getD s.piiRedaction
  enabled := u.enabled.getD s.enabled

def RouteRecord.update (r : RouteRecord) (u : RouteChanges) : RouteRecord where
  id := r.id
  name := u.name.getD r.name
  settings := r.settings.update u
  organizationId := u.organizationId.getD r.organizationId

theorem update_ofSettings (s t : RouteSettings) : s.update (.ofSettings t) = t.stored := rfl

structure DestinationRecord where
  id : String
  row : Destination
  isDefault : Bool := false
  deriving DecidableEq

/-- An entry of the trail of routes; the state of the row is missing where the column has its
default. -/
structure RouteAudit where
  id : String
  routeId : String
  action : String
  actor : Option String
  organizationId : Option Int
  snapshot : Option RouteRecord

structure DestinationAudit where
  destinationId : String
  action : String
  actor : Option String
  organizationId : Option Int

/-- The tables, with the constraints that they declare. -/
structure ConfigDb where
  organizations : List Int := []
  destinations : List DestinationRecord := []
  routes : List RouteRecord := []
  destinationAudit : List DestinationAudit := []
  routeAudit : List RouteAudit := []
  destinationKeys : (destinations.map (·.id)).Nodup := by exact List.nodup_nil
  destinationNames : (destinations.map (·.row.name)).Nodup := by exact List.nodup_nil
  routeKeys : (routes.map (·.id)).Nodup := by exact List.nodup_nil

/-- What a statement violates: the unique name of destinations or the key of an organization. -/
inductive DbError where
  | duplicateName (name : String)
  | missingOrganization (id : Option Int)
  deriving DecidableEq

/-- The library, the identifiers, the clock and the vault. -/
structure ConfigEnv where
  rt : Runtime
  dumps : Json → String
  ids : IdSource String
  now : Int
  encrypt : String → Except String String

def longerIds : IdSource String where
  next used := String.ofList (List.replicate ((used.map String.length).sum + 1) 'x')
  fresh used hused := by
    have hlength := List.le_sum_of_mem (List.mem_map_of_mem (f := String.length) hused)
    rw [String.length_ofList, List.length_replicate] at hlength
    exact Nat.not_succ_le_self _ hlength

def visibleTo (orgId : Option Int) (globalScope : Bool) (owner : Option Int) : Bool :=
  globalScope || decide (owner = none) || decide (owner = orgId)

namespace ConfigDb

def hasOrganization (db : ConfigDb) (id : Option Int) : Bool := id.all (db.organizations.contains ·)

end ConfigDb

section Repositories
variable (env : ConfigEnv)

namespace DestinationRepository

def audit (r : DestinationRecord) (action : String) (actor : Option String) : DestinationAudit where
  destinationId := r.id
  action := action
  actor := actor
  organizationId := r.row.organizationId

def get (db : ConfigDb) (id : String) : Option DestinationRecord :=
  KeyedRows.get (·.id) db.destinations id

def nameLe (r s : DestinationRecord) : Prop := ¬ s.row.name < r.row.name

instance : DecidableRel nameLe := fun r s => inferInstanceAs (Decidable (¬ s.row.name < r.row.name))

/-- `list` with `include_disabled`. -/
def list (db : ConfigDb) (orgId : Option Int) (globalScope : Bool) (limit : Nat) :
    List DestinationRecord :=
  let rows := db.destinations.filter (fun r => visibleTo orgId globalScope r.row.organizationId)
  (rows.insertionSort nameLe).take limit

def add (db : ConfigDb) (a : NewDestination) (actor : Option String) :
    Except DbError (DestinationRecord × ConfigDb) :=
  let used := db.destinations.map (·.id)
  let record : DestinationRecord := ⟨env.ids.next used, .add env.rt env.dumps a env.now, false⟩
  if !db.hasOrganization a.organizationId then .error (.missingOrganization a.organizationId)
  else if hname : a.name ∈ db.destinations.map (·.row.name) then .error (.duplicateName a.name)
  else
    .ok (record, { db with
      destinations := db.destinations ++ [record]
      destinationAudit := db.destinationAudit ++ [audit record "create" actor]
      destinationKeys := by
        rw [List.map_append]
        exact env.ids.nodup_append db.destinationKeys
      destinationNames := by
        rw [List.map_append]
        exact db.destinationNames.append (List.nodup_singleton _)
          (List.disjoint_singleton.2 hname) })

/-- The row with the columns that are sent. -/
def changed (u : DestinationChanges) (r : DestinationRecord) : DestinationRecord :=
  { r with row := r.row.update env.rt env.dumps u env.now }

def update (db : ConfigDb) (id : String) (u : DestinationChanges) (actor : Option String) :
    Except DbError (Option DestinationRecord × ConfigDb) :=
  match get db id with
  | none => .ok (none, db)
  | some r =>
    let record := changed env u r
    let rows : List DestinationRecord :=
      KeyedRows.modify (·.id) db.destinations id (changed env u)
    if u.organizationId.any (fun org => !db.hasOrganization org) then
      .error (.missingOrganization record.row.organizationId)
    else if hnames : (rows.map (·.row.name)).Nodup then
      .ok (some record, { db with
        destinations := rows
        destinationAudit := db.destinationAudit ++ [audit record "update" actor]
        destinationKeys :=
          KeyedRows.nodup_modify (f := changed env u) (fun _ => rfl) db.destinationKeys
        destinationNames := hnames })
    else .error (.duplicateName record.row.name)

end DestinationRepository

namespace RouteRepository

/-- An entry of the trail with the state of the row. -/
def audit (db : ConfigDb) (r : RouteRecord) (action : String) (actor : Option String) :
    RouteAudit where
  id := env.ids.next (db.routeAudit.map (·.id))
  routeId := r.id
  action := action
  actor := actor
  organizationId := r.organizationId
  snapshot := r

def get (db : ConfigDb) (id : String) : Option RouteRecord := KeyedRows.get (·.id) db.routes id

def getAudit (db : ConfigDb) (id : String) : Option RouteAudit :=
  KeyedRows.get (·.id) db.routeAudit id

def recordLe (r s : RouteRecord) : Prop :=
  r.settings.priority < s.settings.priority ∨
    r.settings.priority = s.settings.priority ∧ ¬ s.id < r.id

instance : DecidableRel recordLe := fun r s =>
  inferInstanceAs (Decidable (r.settings.priority < s.settings.priority ∨
    r.settings.priority = s.settings.priority ∧ ¬ s.id < r.id))

/-- `list` with `include_disabled`. -/
def list (db : ConfigDb) (orgId : Option Int) (globalScope : Bool) (limit : Nat) :
    List RouteRecord :=
  let rows := db.routes.filter (fun r => visibleTo orgId globalScope r.organizationId)
  (rows.insertionSort recordLe).take limit

def add (db : ConfigDb) (name : String) (settings : RouteSettings) (organizationId : Option Int)
    (actor : Option String) : Except DbError (RouteRecord × ConfigDb) :=
  let record : RouteRecord :=
    ⟨env.ids.next (db.routes.map (·.id)), name, settings.stored, organizationId⟩
  if !db.hasOrganization organizationId then .error (.missingOrganization organizationId)
  else
    .ok (record, { db with
      routes := db.routes ++ [record]
      routeAudit := db.routeAudit ++ [audit env db record "created" actor]
      routeKeys := by
        rw [List.map_append]
        exact env.ids.nodup_append db.routeKeys })

/-- The row is replaced, and the trail is told. -/
def write (db : ConfigDb) (r : RouteRecord) (u : RouteChanges) (action : String)
    (actor : Option String) : ConfigDb :=
  { db with
    routes := KeyedRows.modify (·.id) db.routes r.id (·.update u)
    routeAudit := db.routeAudit ++ [audit env db (r.update u) action actor]
    routeKeys := KeyedRows.nodup_modify (f := (·.update u)) (fun _ => rfl) db.routeKeys }

def update (db : ConfigDb) (id : String) (u : RouteChanges) (actor : Option String)
    (auditAction : String) : Except DbError (Option RouteRecord × ConfigDb) :=
  match get db id with
  | none => .ok (none, db)
  | some r =>
    if u.organizationId.any (fun org => !db.hasOrganization org) then
      .error (.missingOrganization (r.update u).organizationId)
    else .ok (some (r.update u), write env db r u auditAction actor)

def delete (db : ConfigDb) (id : String) (actor : Option String) : Bool × ConfigDb :=
  match get db id with
  | none => (false, db)
  | some r =>
    (true, { db with
      routes := KeyedRows.remove (·.id) db.routes id
      routeAudit := db.routeAudit ++ [audit env db r "deleted" actor]
      routeKeys := KeyedRows.nodup_remove db.routeKeys })

inductive ReorderError where
  | notFound (message : String)
  | outside (message : String)

/-- The priorities from a position on; an error leaves nothing, as nothing is committed before the
end. -/
def reorderFrom (orgId : Option Int) (globalScope : Bool) (actor : Option String)
    (priorityStep : Int) : List String → Int → ConfigDb → Except ReorderError ConfigDb
  | [], _, db => .ok db
  | id :: ids, position, db =>
    match get db id with
    | none => .error (.notFound ("Route " ++ env.rt.reprStr id ++ " not found"))
    | some r =>
      if !visibleTo orgId globalScope r.organizationId then
        .error (.outside ("Route " ++ env.rt.reprStr id ++
          " is outside the caller's organization scope"))
      else
        reorderFrom orgId globalScope actor priorityStep ids (position + 1)
          (write env db r { priority := some (priorityStep * position) } "reorder" actor)

def reorderRoutes (db : ConfigDb) (routeIds : List String) (orgId : Option Int) (globalScope : Bool)
    (actor : Option String) : Except ReorderError (List RouteRecord × ConfigDb) :=
  match reorderFrom env orgId globalScope actor 10 routeIds 1 db with
  | .error e => .error e
  | .ok db => .ok (routeIds.filterMap (get db), db)

end RouteRepository

end Repositories

end CentralOps
