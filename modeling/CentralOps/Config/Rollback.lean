import CentralOps.Config.Import

namespace CentralOps
set_option autoImplicit true

inductive RouteRequest where
  | create (payload : RouteCreate)
  | update (routeId : String) (payload : RouteChanges)
  | reorder (routeIds : List String)
  | importConfig (payload : ImportRequest)
  | rollback (routeId auditId : String)

/-- A request with its caller, and what the application finds around it when it comes. -/
structure RouteCall where
  env : ConfigEnv
  user : AppUser
  request : RouteRequest

def RouteCall.serve (c : RouteCall) (db : ConfigDb) : ConfigDb :=
  match c.request with
  | .create payload => (createRoute c.env c.user db payload).2
  | .update routeId payload => (updateRoute c.env c.user db routeId payload).2
  | .reorder routeIds => (reorderRoutes c.env c.user db routeIds).2
  | .importConfig payload => (CentralOps.importConfig c.env c.user db payload).2
  | .rollback routeId auditId => (rollbackRoute c.env c.user db routeId auditId).2

def serveAll (calls : List RouteCall) (db : ConfigDb) : ConfigDb :=
  calls.foldl (fun db c => c.serve db) db

/-- What a committed statement does to the routes and their trail: nothing, or it adds a row or
replaces one, and an entry says what the row now is. -/
inductive RouteStatement (db db' : ConfigDb) : Prop where
  | elsewhere (hroutes : db'.routes = db.routes) (htrail : db'.routeAudit = db.routeAudit)
  | added (env : ConfigEnv) (name : String) (settings : RouteSettings) (org : Option Int)
      (action : String) (actor : Option String) (r : RouteRecord)
      (hr : r = ⟨env.ids.next (db.routes.map (·.id)), name, settings.stored, org⟩)
      (hroutes : db'.routes = db.routes ++ [r])
      (htrail : db'.routeAudit = db.routeAudit ++ [RouteRepository.audit env db r action actor])
  | written (env : ConfigEnv) (r : RouteRecord) (u : RouteChanges) (action : String)
      (actor : Option String) (hr : r ∈ db.routes)
      (hroutes : db'.routes = KeyedRows.modify (·.id) db.routes r.id (·.update u))
      (htrail : db'.routeAudit =
        db.routeAudit ++ [RouteRepository.audit env db (r.update u) action actor])

abbrev RouteStatements := Relation.ReflTransGen RouteStatement

section Statements
variable {env : ConfigEnv} {user : AppUser} {db db' : ConfigDb} {α : Type}

theorem update_statements {id : String} {u : RouteChanges} {actor : Option String}
    {action : String} {row : Option RouteRecord}
    (h : RouteRepository.update env db id u actor action = .ok (row, db')) :
    RouteStatements db db' := by
  rw [RouteRepository.update] at h
  cases hget : RouteRepository.get db id with
  | none =>
    rw [hget] at h
    cases h
    exact .refl
  | some r =>
    rw [hget] at h
    simp only at h
    split at h
    · cases h
    · cases h
      exact .single (.written env r u action actor (RouteRepository.get_eq_some hget).1 rfl rfl)

theorem add_statements {name : String} {settings : RouteSettings} {org : Option Int}
    {actor : Option String} {r : RouteRecord}
    (h : RouteRepository.add env db name settings org actor = .ok (r, db')) :
    RouteStatements db db' := by
  rw [RouteRepository.add] at h
  split at h
  · cases h
  · cases h
    exact .single (.added env _ _ _ _ _ _ rfl rfl rfl)

theorem answerFound_statements {result : Except DbError (Option RouteRecord × ConfigDb)}
    (h : ∀ row db', result = .ok (row, db') → RouteStatements db db') :
    RouteStatements db (answerFound db result).2 := by
  rcases result with e | ⟨_ | r, db'⟩
  · exact .refl
  · exact h none db' rfl
  · exact h (some r) db' rfl

theorem createRoute_statements (p : RouteCreate) :
    RouteStatements db (createRoute env user db p).2 := by
  rw [createRoute]
  simp only
  split
  · exact .refl
  split
  · exact .refl
  split
  · exact .refl
  cases hadd : RouteRepository.add env db (strippedName p.name) p.settings
      (createdOrg user p.organizationId) user.username with
  | error e => exact .refl
  | ok result => exact add_statements hadd

theorem updateRoute_statements (routeId : String) (u : RouteChanges) :
    RouteStatements db (updateRoute env user db routeId u).2 := by
  rw [updateRoute]
  simp only
  split
  · exact .refl
  split
  · exact .refl
  split
  · exact .refl
  split
  · exact .refl
  · exact answerFound_statements fun _ _ => update_statements

theorem reorderFrom_statements {orgId : Option Int} {globalScope : Bool} {actor : Option String}
    {step position : Int} {ids : List String}
    (h : RouteRepository.reorderFrom env orgId globalScope actor step ids position db = .ok db') :
    RouteStatements db db' := by
  induction ids generalizing position db with
  | nil =>
    cases h
    exact .refl
  | cons id ids ih =>
    rw [RouteRepository.reorderFrom] at h
    cases hget : RouteRepository.get db id with
    | none =>
      rw [hget] at h
      cases h
    | some r =>
      rw [hget] at h
      simp only at h
      split at h
      · cases h
      · exact .head (.written env r _ _ _ (RouteRepository.get_eq_some hget).1 rfl rfl) (ih h)

theorem reorderRoutes_statements (routeIds : List String) :
    RouteStatements db (reorderRoutes env user db routeIds).2 := by
  rw [reorderRoutes]
  simp only
  split
  · exact .refl
  rw [RouteRepository.reorderRoutes]
  cases hfrom : RouteRepository.reorderFrom env (resolveScope user).2 (resolveScope user).1
      user.username 10 routeIds 1 db with
  | error e =>
    cases e with
    | notFound message => exact .refl
    | outside message => exact .refl
  | ok db' => exact reorderFrom_statements hfrom

theorem importRoute_statements {c : ImportScope} {names : List (String × String)} {x : RouteRead}
    {o : ConfigDiff} (h : c.importRoute env db names x = .ok (o, db')) :
    RouteStatements db db' := by
  rw [ImportScope.importRoute] at h
  simp only at h
  cases hfind : c.findRoute db x.name with
  | none =>
    rw [hfind] at h
    simp only at h
    split at h
    · cases h
      exact .refl
    split at h
    · cases h
    · rename_i hadd
      cases h
      exact add_statements hadd
  | some r =>
    rw [hfind] at h
    simp only at h
    split at h
    · split at h
      · cases h
        exact .refl
      split at h
      · cases h
      · rename_i hupdate
        cases h
        exact update_statements hupdate
    · cases h
      exact .refl

theorem importEntry_statements {c : ImportScope} {e : BundleEntry} {o : ConfigDiff}
    (h : c.importEntry env db e = .ok (o, db')) : RouteStatements db db' := by
  cases e with
  | route x => exact importRoute_statements h
  | destination d =>
    cases hdry : c.dryRun with
    | true =>
      rw [ImportScope.importEntry_dry hdry] at h
      cases h
      exact .refl
    | false =>
      cases (ImportScope.importEntry_taken hdry h).2 with
      | unchanged => exact .refl
      | createdDestination _ _ _ _ _ _ hwritten =>
        exact .single (.elsewhere hwritten.routes hwritten.routeAudit)
      | updatedDestination _ _ _ hwritten =>
        exact .single (.elsewhere hwritten.routes hwritten.routeAudit)

theorem importConfig_statements (req : ImportRequest) :
    RouteStatements db (importConfig env user db req).2 := by
  cases hscope : importScope env user req with
  | error e => rw [importConfig_rejected hscope]
  | ok c =>
    rw [importConfig_db hscope]
    exact Batch.keeps (fun _ => .refl) (fun _ _ _ => .trans)
      (fun _ _ _ _ _ => importEntry_statements) (Batch.AtTurns.unconditional _ _ _)

theorem rollbackRoute_statements (routeId auditId : String) :
    RouteStatements db (rollbackRoute env user db routeId auditId).2 := by
  rw [rollbackRoute]
  simp only
  split
  · exact .refl
  split
  · exact .refl
  split
  · exact .refl
  split
  · exact .refl
  · exact answerFound_statements fun _ _ => update_statements

theorem RouteCall.serve_statements (c : RouteCall) : RouteStatements db (c.serve db) := by
  rw [serve]
  cases c.request with
  | create payload => exact createRoute_statements payload
  | update routeId payload => exact updateRoute_statements routeId payload
  | reorder routeIds => exact reorderRoutes_statements routeIds
  | importConfig payload => exact importConfig_statements payload
  | rollback routeId auditId => exact rollbackRoute_statements routeId auditId

theorem serveAll_statements (calls : List RouteCall) : RouteStatements db (serveAll calls db) := by
  induction calls generalizing db with
  | nil => exact .refl
  | cons c calls ih => exact (c.serve_statements).trans ih

end Statements

section Trail

theorem truthy_sorted (v : Json) : v.sorted.truthy = v.truthy := by
  cases v with
  | list xs => cases xs with
    | nil => rfl
    | cons x xs => rfl
  | obj o =>
    have hlength : (Assoc.byKey (sortedFields o)).length = o.length := by
      rw [(Assoc.byKey_perm _).length_eq, sortedFields_eq, List.length_map]
    rw [Json.sorted, Json.truthy, Json.truthy, Bool.eq_iff_iff]
    simp only [Bool.not_eq_true', List.isEmpty_eq_false_iff, ← List.length_pos_iff, hlength]
  | _ => rfl

@[simp] theorem storedRedaction_stored (v : Json) :
    storedRedaction (storedRedaction v) = storedRedaction v := by
  rw [storedRedaction, storedRedaction]
  cases h : v.truthy with
  | false => rfl
  | true => simp only [if_true, truthy_sorted, h, Json.sorted_sorted]

/-- The columns hold what their serialisation gives back. -/
def RouteSettings.Stored (s : RouteSettings) : Prop := s.stored = s

theorem RouteSettings.stored_stored (s : RouteSettings) : s.stored.Stored := by
  rw [Stored, stored, stored, sortObj_sortObj, storedRedaction_stored]

theorem RouteSettings.Stored.update {s : RouteSettings} (h : s.Stored) (u : RouteChanges) :
    (s.update u).Stored := by
  have hcondition : sortObj s.condition = s.condition := congrArg RouteSettings.condition h
  have hredaction : storedRedaction s.piiRedaction = s.piiRedaction :=
    congrArg RouteSettings.piiRedaction h
  have hset : sortObj (s.update u).condition = (s.update u).condition ∧
      storedRedaction (s.update u).piiRedaction = (s.update u).piiRedaction := by
    rw [RouteSettings.update]
    constructor
    · cases u.condition with
      | none => exact hcondition
      | some c => exact sortObj_sortObj c
    · cases u.piiRedaction with
      | none => exact hredaction
      | some v => exact storedRedaction_stored v
  rw [Stored, stored, hset.1, hset.2]

def ConfigDb.entriesOf (db : ConfigDb) (routeId : String) : List RouteAudit :=
  db.routeAudit.filter (fun e => decide (e.routeId = routeId))

def ConfigDb.lastEntry (db : ConfigDb) (routeId : String) : Option RouteAudit :=
  (db.entriesOf routeId).getLast?

/-- Every entry of the trail has a key of its own and holds a row as it was stored, and the last
entry of a route holds its row. -/
structure Trailed (db : ConfigDb) : Prop where
  keys : (db.routeAudit.map (·.id)).Nodup
  stored : ∀ r ∈ db.routes, r.settings.Stored
  entries : ∀ e ∈ db.routeAudit, ∃ r, e.snapshot = some r ∧ r.id = e.routeId ∧ r.settings.Stored
  latest : ∀ r ∈ db.routes, (db.lastEntry r.id).bind (·.snapshot) = some r

variable {env : ConfigEnv} {db db' : ConfigDb} {r : RouteRecord} {e : RouteAudit}

theorem lastEntry_append (htrail : db'.routeAudit = db.routeAudit ++ [e]) (routeId : String) :
    db'.lastEntry routeId = if e.routeId = routeId then some e else db.lastEntry routeId := by
  rw [ConfigDb.lastEntry, ConfigDb.entriesOf, htrail, List.filter_append]
  by_cases hid : e.routeId = routeId
  · simp [hid]
  · simp [hid, ConfigDb.lastEntry, ConfigDb.entriesOf]

/-- One more entry, with a row that is stored and, where it is a row of the table, is the entry's. -/
theorem Trailed.extend {action : String} {actor : Option String} (h : Trailed db)
    (hr : r.settings.Stored)
    (htrail : db'.routeAudit = db.routeAudit ++ [RouteRepository.audit env db r action actor])
    (hrows : ∀ x ∈ db'.routes, x = r ∨ x.id ≠ r.id ∧ x ∈ db.routes) : Trailed db' where
  keys := by
    rw [htrail, List.map_append]
    exact env.ids.nodup_append h.keys
  stored x hx := by
    rcases hrows x hx with rfl | ⟨-, hold⟩
    · exact hr
    · exact h.stored x hold
  entries e he := by
    rw [htrail, List.mem_append, List.mem_singleton] at he
    rcases he with hold | rfl
    · exact h.entries e hold
    · exact ⟨r, rfl, rfl, hr⟩
  latest x hx := by
    rw [lastEntry_append htrail]
    rcases hrows x hx with rfl | ⟨hother, hold⟩
    · exact congrArg (Option.bind · _) (if_pos rfl)
    · rw [if_neg (fun hid => hother hid.symm)]
      exact h.latest x hold

theorem Trailed.step (h : Trailed db) (hstep : RouteStatement db db') : Trailed db' := by
  cases hstep with
  | elsewhere hroutes htrail =>
    constructor
    · rw [htrail]
      exact h.keys
    · rw [hroutes]
      exact h.stored
    · rw [htrail]
      exact h.entries
    · intro r hr
      rw [hroutes] at hr
      rw [ConfigDb.lastEntry, ConfigDb.entriesOf, htrail]
      exact h.latest r hr
  | added env name settings org action actor r hr hroutes htrail =>
    refine h.extend ?_ htrail fun x hx => ?_
    · rw [hr]
      exact settings.stored_stored
    · rw [hroutes, List.mem_append, List.mem_singleton] at hx
      rcases hx with hold | rfl
      · refine .inr ⟨fun hid => ?_, hold⟩
        rw [hr] at hid
        exact env.ids.fresh _ (List.mem_map.2 ⟨x, hold, hid⟩)
      · exact .inl rfl
  | written env r u action actor hr hroutes htrail =>
    refine h.extend ((h.stored r hr).update u) htrail fun x hx => ?_
    rw [hroutes, KeyedRows.mem_modify] at hx
    obtain ⟨old, hold, rfl⟩ := hx
    by_cases hid : old.id = r.id
    · rw [if_pos hid, List.inj_on_of_nodup_map db.routeKeys hold hr hid]
      exact .inl rfl
    · rw [if_neg hid]
      exact .inr ⟨hid, hold⟩

theorem Trailed.run (h : Trailed db) (hrun : RouteStatements db db') : Trailed db' := by
  induction hrun with
  | refl => exact h
  | tail _ hstep ih => exact ih.step hstep

theorem RouteStatement.trail (h : RouteStatement db db') : db.routeAudit <+: db'.routeAudit := by
  cases h with
  | elsewhere _ htrail => rw [htrail]
  | added _ _ _ _ _ _ _ _ _ htrail => exact ⟨_, htrail.symm⟩
  | written _ _ _ _ _ _ _ htrail => exact ⟨_, htrail.symm⟩

theorem trail_grows (h : RouteStatements db db') : db.routeAudit <+: db'.routeAudit := by
  induction h with
  | refl => exact List.prefix_refl _
  | tail _ hstep ih => exact ih.trans hstep.trail

theorem Trailed.start (hroutes : db.routes = []) (htrail : db.routeAudit = []) : Trailed db := by
  constructor
  · rw [htrail]
    exact List.nodup_nil
  · simp [hroutes]
  · simp [htrail]
  · simp [hroutes]

end Trail

section Rollback
variable {env : ConfigEnv} {user : AppUser} {db db' : ConfigDb} {e : RouteAudit} {read : RouteRead}

theorem rollbackRoute_ok {routeId auditId : String}
    (h : rollbackRoute env user db routeId auditId = (.ok read, db')) :
    ∃ entry r, RouteRepository.getAudit db auditId = some entry ∧ entry.routeId = routeId ∧
      RouteRepository.get db routeId = some r ∧
      db' = RouteRepository.write env db r (snapshotChanges entry.snapshot) "rolled_back"
        user.username := by
  rw [rollbackRoute] at h
  simp only at h
  cases hguard : assertMutable (RouteRepository.get db routeId) user with
  | error x =>
    rw [hguard] at h
    cases h
  | ok existing =>
    rw [hguard] at h
    cases haudit : RouteRepository.getAudit db auditId with
    | none =>
      rw [haudit] at h
      cases h
    | some entry =>
      rw [haudit] at h
      simp only at h
      split at h
      · cases h
      rename_i hroute
      split at h
      · cases h
      have horg : (snapshotChanges entry.snapshot).organizationId = none := by
        cases entry.snapshot with
        | none => rfl
        | some r => rfl
      cases hget : RouteRepository.get db routeId with
      | none =>
        rw [RouteRepository.update, hget] at h
        cases h
      | some r =>
        rw [RouteRepository.update_ok env _ hget horg] at h
        cases h
        exact ⟨entry, r, rfl, of_not_not hroute, rfl, rfl⟩

/-- What a successful rollback to an entry leaves: the row as the entry has it, and a longer trail.
Where the entry is the last of its route, nothing but the trail has changed. -/
structure Restores (db db' : ConfigDb) (e : RouteAudit) : Prop where
  row : RouteRepository.get db' e.routeId = e.snapshot
  grows : ∃ entry, db'.routeAudit = db.routeAudit ++ [entry]
  still : db.lastEntry e.routeId = some e → db'.routes = db.routes ∧
    db'.destinations = db.destinations ∧ db'.organizations = db.organizations ∧
    db'.destinationAudit = db.destinationAudit

/-- The row is in the organization that the entry names. -/
def SameOwner (db : ConfigDb) (e : RouteAudit) : Prop :=
  (RouteRepository.get db e.routeId).map (·.organizationId) =
    e.snapshot.map (·.organizationId)

theorem restored_row {r s : RouteRecord} (hid : s.id = r.id) (hs : s.settings.Stored) :
    r.update (snapshotChanges (some s)) = s ↔ r.organizationId = s.organizationId := by
  have hupdate : r.update (snapshotChanges (some s)) =
      ⟨r.id, s.name, s.settings.stored, r.organizationId⟩ := rfl
  rw [hupdate, hs, ← hid]
  constructor
  · exact congrArg RouteRecord.organizationId
  · intro h
    rw [h]

/-- After any history, a rollback that succeeds restores the entry just where the route has not
changed its organization since; and no later request takes an entry from the trail. -/
theorem rollback_restores_iff (hroutes : db.routes = []) (htrail : db.routeAudit = [])
    (calls : List RouteCall) (env : ConfigEnv) (user : AppUser)
    (he : e ∈ (serveAll calls db).routeAudit)
    (h : rollbackRoute env user (serveAll calls db) e.routeId e.id = (.ok read, db')) :
    (Restores (serveAll calls db) db' e ↔ SameOwner (serveAll calls db) e) ∧
      ∀ more, (serveAll calls db).routeAudit <+:
        (serveAll more (serveAll calls db)).routeAudit := by
  have htrailed := (Trailed.start hroutes htrail).run (serveAll_statements calls)
  refine ⟨?_, fun more => trail_grows (serveAll_statements more)⟩
  generalize serveAll calls db = now at *
  obtain ⟨entry, r, haudit, -, hget, rfl⟩ := rollbackRoute_ok h
  have hentry : entry = e := by
    have hfound : RouteRepository.getAudit now e.id = some e :=
      KeyedRows.get_of_mem htrailed.keys he rfl
    exact Option.some.inj (haudit.symm.trans hfound)
  subst hentry
  obtain ⟨s, hsnap, hid, hs⟩ := htrailed.entries entry he
  obtain ⟨hr, hrid⟩ := RouteRepository.get_eq_some hget
  have hmem : r.update (snapshotChanges entry.snapshot) ∈ (RouteRepository.write env now r
      (snapshotChanges entry.snapshot) "rolled_back" user.username).routes :=
    KeyedRows.mem_modify.2 ⟨r, hr, if_pos rfl⟩
  have hnew := RouteRepository.get_of_mem hmem
  have hrow : (r.update (snapshotChanges entry.snapshot)).id = entry.routeId := hrid
  rw [hrow] at hnew
  rw [SameOwner, hget, hsnap, Option.map_some, Option.map_some, Option.some.injEq]
  rw [← restored_row (hid.trans hrid.symm) hs, ← hsnap]
  constructor
  · intro hrestores
    have hsame := hrestores.row
    rw [hnew, hsnap, Option.some.injEq] at hsame
    rw [hsnap]
    exact hsame
  · intro hsame
    refine ⟨?_, ⟨_, rfl⟩, fun hlast => ⟨?_, rfl, rfl, rfl⟩⟩
    · rw [hnew, hsame, hsnap]
    · have hrow' : s = r := by
        have hlatest := htrailed.latest r hr
        rw [hrid, hlast, Option.bind_some, hsnap] at hlatest
        exact Option.some.inj hlatest
      refine (List.map_congr_left fun x hx => ?_).trans (List.map_id' _)
      by_cases hid : x.id = r.id
      · rw [if_pos hid, List.inj_on_of_nodup_map now.routeKeys hx hr hid]
        exact hsame.trans hrow'
      · exact if_neg hid

section Example

deriving instance DecidableEq for RouteAudit

def platformAdmin : AppUser := ⟨"root", "admin", none, true⟩

def noRoutes : ConfigDb where
  organizations := [1, 2]

def createDrop : RouteCall where
  env := plainEnv
  user := platformAdmin
  request := .create ⟨"noise", { action := "drop" }, some 1⟩

def updateDrop (changes : RouteChanges) : RouteCall where
  env := plainEnv
  user := platformAdmin
  request := .update "x" changes

def firstEntry (db : ConfigDb) : RouteAudit :=
  db.routeAudit.headD ⟨"", "", "", none, none, none⟩

/-- A new priority is taken back. -/
def repriced : ConfigDb := serveAll [createDrop, updateDrop { priority := some 5 }] noRoutes

theorem repriced_restores : ∃ read db', rollbackRoute plainEnv platformAdmin repriced
    (firstEntry repriced).routeId (firstEntry repriced).id = (.ok read, db') ∧
      (Restores repriced db' (firstEntry repriced) ↔ SameOwner repriced (firstEntry repriced)) ∧
      ∀ more, repriced.routeAudit <+: (serveAll more repriced).routeAudit := by
  have hok : (rollbackRoute plainEnv platformAdmin repriced (firstEntry repriced).routeId
      (firstEntry repriced).id).1.isOk = true := by decide +kernel
  have hentry : firstEntry repriced ∈ repriced.routeAudit := by decide +kernel
  cases hrollback : rollbackRoute plainEnv platformAdmin repriced (firstEntry repriced).routeId
      (firstEntry repriced).id with
  | mk result db' =>
    cases result with
    | error x =>
      rw [hrollback] at hok
      cases hok
    | ok read =>
      have hstart : noRoutes.routes = [] := rfl
      exact ⟨read, db', rfl, rollback_restores_iff hstart rfl _ _ _ hentry hrollback⟩

/-- The route is moved to the second organization. -/
def moved : ConfigDb :=
  serveAll [createDrop, updateDrop { organizationId := some (some 2) }] noRoutes

/-- The rollback to the entry of its creation leaves the route there. -/
theorem moved_not_restored :
    firstEntry moved ∈ moved.routeAudit ∧
      (rollbackRoute plainEnv platformAdmin moved (firstEntry moved).routeId
        (firstEntry moved).id).1.isOk = true ∧
      RouteRepository.get (rollbackRoute plainEnv platformAdmin moved (firstEntry moved).routeId
        (firstEntry moved).id).2 (firstEntry moved).routeId ≠ (firstEntry moved).snapshot := by
  decide +kernel

end Example

end Rollback

end CentralOps
