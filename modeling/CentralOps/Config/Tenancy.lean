import CentralOps.Config.Rollback

namespace CentralOps
set_option autoImplicit true

inductive TenantRequest where
  | route (request : RouteRequest)
  | delete (routeId : String)

/-- A request behind `require_admin_user`. -/
def TenantRequest.serve (env : ConfigEnv) (caller : Caller) (request : TenantRequest)
    (db : ConfigDb) : ConfigDb :=
  if caller.isAdmin then
    match request with
    | .route request => RouteCall.serve ⟨env, caller.user, request⟩ db
    | .delete routeId => (deleteRoute env caller.user db routeId).2
  else db

def TenantRequest.serveAll (caller : Caller) (calls : List (ConfigEnv × TenantRequest))
    (db : ConfigDb) : ConfigDb :=
  calls.foldl (fun db c => c.2.serve c.1 caller db) db

/-- A row of the organization itself. -/
def owns (own owner : Option Int) : Bool := owner.isSome && decide (owner = own)

def foreignRoutes (own : Option Int) (db : ConfigDb) : List RouteRecord :=
  db.routes.filter (fun r => !owns own r.organizationId)

def foreignDestinations (own : Option Int) (db : ConfigDb) : List DestinationRecord :=
  db.destinations.filter (fun d => !owns own d.row.organizationId)

def Usable (own : Option Int) (db : ConfigDb) (ids : List String) : Prop :=
  ∀ did ∈ ids, ∃ d ∈ db.destinations, d.id = did ∧
    visibleTo own false d.row.organizationId = true

/-- What the requests of a tenant leave of what is not theirs, and where the routes that they wrote,
those of the new entries of the trail, send events. -/
structure Confined (own : Option Int) (db db' : ConfigDb) : Prop where
  routes : foreignRoutes own db' = foreignRoutes own db
  destinations : foreignDestinations own db' = foreignDestinations own db
  usable : ∀ e ∈ db'.routeAudit.drop db.routeAudit.length, ∀ r ∈ db'.routes, r.id = e.routeId →
    Usable own db' r.settings.destinationIds

section Proper
variable (own : Option Int)

/-- Where an import writes the row of an entry, the row is the organization's or new, and a route's
destinations can be used. -/
def ProperEntry (c : ImportScope) (db : ConfigDb) : BundleEntry → Prop
  | .destination d => ∀ r, c.findDestination db d.name = some r → c.destinationDiffers r d = true →
      owns own r.row.organizationId = true
  | .route x =>
      (∀ r, c.findRoute db x.name = some r →
        ImportScope.routeDiffers r.settings x.settings x.settings.destinationIds = true →
        owns own r.organizationId = true ∧ Usable own db x.settings.destinationIds) ∧
      (c.findRoute db x.name = none → db.hasOrganization own = true →
        Usable own db x.settings.destinationIds)

/-- No shared route is reordered, no shared row is imported over, and no route of the organization
is written that keeps, restores or imports destinations that it cannot use. -/
def Proper (env : ConfigEnv) (user : AppUser) (db : ConfigDb) : TenantRequest → Prop
  | .route (.update routeId u) => ∀ r, RouteRepository.get db routeId = some r →
      owns own r.organizationId = true → u.errors env.rt = [] → u.destinationIds = none →
      effectiveError (u.action.getD r.settings.action) r.settings.destinationIds = none →
      Usable own db r.settings.destinationIds
  | .route (.reorder routeIds) =>
      (∀ id ∈ routeIds, ∃ r, RouteRepository.get db id = some r ∧
        visibleTo own false r.organizationId = true) → routeIdsErrors routeIds = [] →
      ∀ id ∈ routeIds, ∀ r, RouteRepository.get db id = some r →
        owns own r.organizationId = true ∧ Usable own db r.settings.destinationIds
  | .route (.importConfig req) => ∀ c, importScope env user req = .ok c → c.dryRun = false →
      AtTurns (c.importEntry env) (ProperEntry own c) req.bundle.entries db
  | .route (.rollback routeId auditId) => ∀ r entry, RouteRepository.get db routeId = some r →
      owns own r.organizationId = true → RouteRepository.getAudit db auditId = some entry →
      entry.routeId = routeId → snapshotDestinations entry.snapshot = [] →
      Usable own db (entry.snapshot.elim r.settings.destinationIds (·.settings.destinationIds))
  | _ => True

def ProperRun (caller : Caller) : List (ConfigEnv × TenantRequest) → ConfigDb → Prop
  | [], _ => True
  | c :: calls, db => Proper caller.user.organizationId c.1 caller.user db c.2 ∧
      ProperRun caller calls (c.2.serve c.1 caller db)

end Proper

/-- `Confined`, in the form that composes: a route is usable, or it is as it was. -/
structure Keeps (own : Option Int) (db db' : ConfigDb) : Prop where
  routes : foreignRoutes own db' = foreignRoutes own db
  destinations : foreignDestinations own db' = foreignDestinations own db
  grows : ∀ ids, Usable own db ids → Usable own db' ids
  wrote : ∃ entries, db'.routeAudit = db.routeAudit ++ entries ∧ ∀ r ∈ db'.routes,
    Usable own db' r.settings.destinationIds ∨ r ∈ db.routes ∧ ∀ e ∈ entries, r.id ≠ e.routeId

namespace Keeps
variable {own : Option Int} {db db' db'' : ConfigDb} {env : ConfigEnv}

theorem refl (db : ConfigDb) : Keeps own db db :=
  ⟨rfl, rfl, fun _ h => h, [], (List.append_nil _).symm, fun _ hr => .inr ⟨hr, by simp⟩⟩

theorem trans (h : Keeps own db db') (h' : Keeps own db' db'') : Keeps own db db'' := by
  obtain ⟨entries, htrail, hwrote⟩ := h.wrote
  obtain ⟨more, htrail', hwrote'⟩ := h'.wrote
  refine ⟨h'.routes.trans h.routes, h'.destinations.trans h.destinations,
    fun ids hids => h'.grows ids (h.grows ids hids), entries ++ more, ?_, fun r hr => ?_⟩
  · rw [htrail', htrail, List.append_assoc]
  · rcases hwrote' r hr with husable | ⟨hold, hnot⟩
    · exact .inl husable
    rcases hwrote r hold with husable | ⟨hold, hnot'⟩
    · exact .inl (h'.grows _ husable)
    · exact .inr ⟨hold, List.forall_mem_append.2 ⟨hnot', hnot⟩⟩

theorem confined (h : Keeps own db db') : Confined own db db' := by
  obtain ⟨entries, htrail, hwrote⟩ := h.wrote
  refine ⟨h.routes, h.destinations, fun e he r hr hid => ?_⟩
  rw [htrail, List.drop_left] at he
  rcases hwrote r hr with husable | ⟨-, hnot⟩
  · exact husable
  · exact absurd hid (hnot e he)

theorem add {name : String} {settings : RouteSettings} {org : Option Int} {actor : Option String}
    {r : RouteRecord} (h : RouteRepository.add env db name settings org actor = .ok (r, db'))
    (horg : owns own org = true) (husable : Usable own db settings.destinationIds) :
    Keeps own db db' := by
  rw [RouteRepository.add] at h
  split at h
  · cases h
  cases h
  refine ⟨?_, rfl, fun _ h => h, _, rfl, fun r hr => ?_⟩
  · rw [foreignRoutes, List.filter_append, foreignRoutes]
    simp [horg]
  · rcases List.mem_append.1 hr with hold | hnew
    · by_cases hid : r.id = env.ids.next (db.routes.map (·.id))
      · exact absurd (List.mem_map.2 ⟨r, hold, hid⟩) (env.ids.fresh _)
      · exact .inr ⟨hold, fun e he => by rwa [List.mem_singleton.1 he]⟩
    · rw [List.mem_singleton.1 hnew]
      exact .inl husable

theorem write {r : RouteRecord} {u : RouteChanges} {action : String} {actor : Option String}
    (hr : r ∈ db.routes) (horg : owns own r.organizationId = true)
    (hnew : owns own (r.update u).organizationId = true)
    (husable : Usable own db (r.update u).settings.destinationIds) :
    Keeps own db (RouteRepository.write env db r u action actor) := by
  refine ⟨?_, rfl, fun _ h => h, _, rfl, fun x hx => ?_⟩
  · apply KeyedRows.filter_modify
    intro x hx hid
    rw [List.inj_on_of_nodup_map db.routeKeys hx hr hid]
    exact ⟨by rw [horg]; rfl, by rw [hnew]; rfl⟩
  · obtain ⟨old, hold, rfl⟩ := KeyedRows.mem_modify.1 hx
    by_cases hid : old.id = r.id
    · rw [if_pos hid, List.inj_on_of_nodup_map db.routeKeys hold hr hid]
      exact .inl husable
    · rw [if_neg hid]
      exact .inr ⟨hold, fun e he => by rwa [List.mem_singleton.1 he]⟩

theorem delete {r : RouteRecord} {id : String} {actor : Option String}
    (hget : RouteRepository.get db id = some r) (horg : owns own r.organizationId = true) :
    Keeps own db (RouteRepository.delete env db id actor).2 := by
  obtain ⟨hr, hid⟩ := RouteRepository.get_eq_some hget
  rw [RouteRepository.delete, hget]
  refine ⟨?_, rfl, fun _ h => h, _, rfl, fun x hx => ?_⟩
  · apply KeyedRows.filter_remove
    intro x hx hkey
    rw [List.inj_on_of_nodup_map db.routeKeys hx hr (hkey.trans hid.symm), horg]
    rfl
  · obtain ⟨hold, hother⟩ := List.mem_filter.1 hx
    refine .inr ⟨hold, fun e he => ?_⟩
    rw [List.mem_singleton.1 he]
    exact fun hsame => of_decide_eq_true hother (hsame.trans hid)

theorem destinations_written (hwritten : DestinationsWritten db db')
    (hforeign : foreignDestinations own db' = foreignDestinations own db)
    (hstay : ∀ d ∈ db.destinations, ∃ d' ∈ db'.destinations, d'.id = d.id ∧
      d'.row.organizationId = d.row.organizationId) : Keeps own db db' := by
  refine ⟨?_, hforeign, fun ids hids did hdid => ?_, [], ?_, fun r hr => .inr ⟨?_, by simp⟩⟩
  · rw [foreignRoutes, hwritten.routes, foreignRoutes]
  · obtain ⟨d, hd, rfl, hvisible⟩ := hids did hdid
    obtain ⟨d', hd', hid, horg⟩ := hstay d hd
    exact ⟨d', hd', hid, by rwa [horg]⟩
  · rw [hwritten.routeAudit, List.append_nil]
  · rwa [hwritten.routes] at hr

end Keeps

section Requests
variable {env : ConfigEnv} {user : AppUser} {db db' : ConfigDb}

theorem resolveScope_tenant (h : hasGlobalScope user = false) :
    resolveScope user = (false, user.organizationId) := by
  rw [resolveScope, h]
  rfl

theorem assertMutable_owned (h : hasGlobalScope user = false) {row : Option RouteRecord}
    {r : RouteRecord} (hguard : assertMutable row user = .ok r) :
    row = some r ∧ owns user.organizationId r.organizationId = true := by
  rw [assertMutable] at hguard
  cases row with
  | none => cases hguard
  | some x =>
    rw [assertVisible] at hguard
    cases horg : x.organizationId with
    | none =>
      simp [horg, h] at hguard
    | some org =>
      simp only [horg, canAccessSubtree, h, Bool.false_or, Option.all_some] at hguard
      split at hguard
      · cases hguard
      · rename_i hvisible
        split at hvisible
        · rename_i hsame
          cases hvisible
          simp only [horg, Option.isNone_some, Bool.and_false, Bool.false_eq_true, if_false,
            Except.ok.injEq] at hguard
          subst hguard
          refine ⟨rfl, ?_⟩
          rw [owns, horg, of_decide_eq_true hsame]
          simp
        · cases hvisible

theorem usable_of_validated {ids : List String} {own : Option Int}
    (h : validateDestinationsExist db ids own false = none) : Usable own db ids := by
  intro did hdid
  rw [validateDestinationsExist, List.findSome?_eq_none_iff] at h
  have hfound := h did hdid
  cases hget : DestinationRepository.get db did with
  | none => simp [hget] at hfound
  | some d =>
    obtain ⟨hd, hid⟩ := DestinationRepository.get_eq_some hget
    refine ⟨d, hd, hid, ?_⟩
    simpa [hget] using hfound

theorem answerFound_keeps {own : Option Int} {routeId : String} {u : RouteChanges}
    {actor : Option String} {action : String} {r : RouteRecord}
    (hget : RouteRepository.get db routeId = some r) (horg : owns own r.organizationId = true)
    (hnew : owns own (r.update u).organizationId = true)
    (husable : Usable own db (r.update u).settings.destinationIds) :
    Keeps own db (answerFound db (RouteRepository.update env db routeId u actor action)).2 := by
  rw [RouteRepository.update, hget]
  simp only
  split
  · exact .refl db
  · exact .write (RouteRepository.get_eq_some hget).1 horg hnew husable

theorem createRoute_keeps (hscope : hasGlobalScope user = false)
    (horg : user.organizationId.isSome = true) (p : RouteCreate) :
    Keeps user.organizationId db (createRoute env user db p).2 := by
  rw [createRoute, resolveScope_tenant hscope]
  simp only
  split
  · exact .refl db
  split
  · exact .refl db
  rename_i hcross
  split
  · exact .refl db
  rename_i hvalid
  have howned : owns user.organizationId (createdOrg user p.organizationId) = true := by
    rw [createdOrg, resolveScope_tenant hscope]
    cases hrequested : p.organizationId with
    | none => simp [owns, horg]
    | some org =>
      rw [hrequested] at hcross
      have hsame : some org = user.organizationId := by simpa using hcross
      simp [owns, hsame, horg]
  cases hadd : RouteRepository.add env db (strippedName p.name) p.settings
      (createdOrg user p.organizationId) user.username with
  | error e => exact .refl db
  | ok result => exact .add hadd howned (usable_of_validated hvalid)

theorem updateRoute_keeps (hscope : hasGlobalScope user = false)
    (horg : user.organizationId.isSome = true) {routeId : String} {u : RouteChanges}
    (h : Proper user.organizationId env user db (.route (.update routeId u))) :
    Keeps user.organizationId db (updateRoute env user db routeId u).2 := by
  rw [updateRoute, resolveScope_tenant hscope]
  simp only
  split
  · exact .refl db
  rename_i herrors
  split
  · exact .refl db
  rename_i r hguard
  obtain ⟨hget, howned⟩ := assertMutable_owned hscope hguard
  split
  · exact .refl db
  rename_i hcross
  split
  · exact .refl db
  rename_i hchecks
  obtain ⟨heffective, hvalid⟩ := Option.or_eq_none_iff.1 hchecks
  apply answerFound_keeps hget howned
  · cases hmove : u.organizationId with
    | none => simpa [RouteRecord.update, RouteChanges.stripped, hmove] using howned
    | some org =>
      have hsame : org = user.organizationId := by simpa [hmove] using hcross
      simpa [RouteRecord.update, RouteChanges.stripped, hmove, hsame, owns] using horg
  · cases hids : u.destinationIds with
    | none =>
      rw [hids] at heffective
      simpa [RouteRecord.update, RouteSettings.update, RouteChanges.stripped, hids] using
        h r hget howned (of_not_not herrors) hids heffective
    | some ids =>
      rw [hids] at hvalid
      simpa [RouteRecord.update, RouteSettings.update, RouteChanges.stripped, hids] using
        usable_of_validated hvalid

theorem deleteRoute_keeps (hscope : hasGlobalScope user = false) (routeId : String) :
    Keeps user.organizationId db (deleteRoute env user db routeId).2 := by
  rw [deleteRoute]
  split
  · exact .refl db
  · rename_i r hguard
    obtain ⟨hget, howned⟩ := assertMutable_owned hscope hguard
    exact .delete hget howned

theorem rollbackRoute_keeps (hscope : hasGlobalScope user = false) {routeId auditId : String}
    (h : Proper user.organizationId env user db (.route (.rollback routeId auditId))) :
    Keeps user.organizationId db (rollbackRoute env user db routeId auditId).2 := by
  rw [rollbackRoute, resolveScope_tenant hscope]
  simp only
  split
  · exact .refl db
  rename_i r hguard
  obtain ⟨hget, howned⟩ := assertMutable_owned hscope hguard
  split
  · exact .refl db
  rename_i entry haudit
  split
  · exact .refl db
  rename_i hroute
  split
  · exact .refl db
  rename_i hchecks
  have hvalid := usable_of_validated (Option.or_eq_none_iff.1 hchecks).1
  have hproper := h r entry hget howned haudit (of_not_not hroute)
  apply answerFound_keeps hget howned
  · cases entry.snapshot with
    | none => exact howned
    | some s => exact howned
  · cases hsnap : entry.snapshot with
    | none =>
      rw [hsnap] at hproper
      exact hproper rfl
    | some s =>
      rw [hsnap] at hproper hvalid
      change Usable _ _ s.settings.destinationIds
      by_cases haction : s.settings.action = "route"
      · rwa [snapshotDestinations, if_pos haction] at hvalid
      · exact hproper (if_neg haction)

/-- A new priority changes neither the owner nor the destinations of a row. -/
theorem repriced_row {r x : RouteRecord} {priority : Int} {action : String} {actor : Option String}
    (h : x ∈ (RouteRepository.write env db r { priority := some priority } action actor).routes) :
    ∃ old ∈ db.routes, old.id = x.id ∧ old.organizationId = x.organizationId ∧
      old.settings.destinationIds = x.settings.destinationIds := by
  obtain ⟨old, hold, rfl⟩ := KeyedRows.mem_modify.1 h
  refine ⟨old, hold, ?_⟩
  split
  · exact ⟨rfl, rfl, rfl⟩
  · exact ⟨rfl, rfl, rfl⟩

section Reorder
variable {own : Option Int} {actor : Option String} {step position : Int} {ids : List String}

theorem reorderFrom_visible
    (h : RouteRepository.reorderFrom env own false actor step ids position db = .ok db') :
    ∀ id ∈ ids, ∃ r, RouteRepository.get db id = some r ∧
      visibleTo own false r.organizationId = true := by
  induction ids generalizing position db with
  | nil => simp
  | cons id ids ih =>
    rw [RouteRepository.reorderFrom] at h
    cases hget : RouteRepository.get db id with
    | none =>
      rw [hget] at h
      cases h
    | some r =>
      rw [hget] at h
      simp only at h
      split at h
      · cases h
      rename_i hvisible
      intro x hx
      rcases List.mem_cons.1 hx with rfl | hx
      · exact ⟨r, hget, by simpa using hvisible⟩
      · obtain ⟨r', hget', hvisible'⟩ := ih h x hx
        obtain ⟨hr', rfl⟩ := RouteRepository.get_eq_some hget'
        obtain ⟨old, hold, hid, horg, -⟩ := repriced_row hr'
        exact ⟨old, hid ▸ RouteRepository.get_of_mem hold, by rwa [horg]⟩

theorem reorderFrom_keeps
    (h : RouteRepository.reorderFrom env own false actor step ids position db = .ok db')
    (hproper : ∀ r ∈ db.routes, r.id ∈ ids →
      owns own r.organizationId = true ∧ Usable own db r.settings.destinationIds) :
    Keeps own db db' := by
  induction ids generalizing position db with
  | nil =>
    cases h
    exact .refl _
  | cons id ids ih =>
    rw [RouteRepository.reorderFrom] at h
    cases hget : RouteRepository.get db id with
    | none =>
      rw [hget] at h
      cases h
    | some r =>
      rw [hget] at h
      simp only at h
      split at h
      · cases h
      obtain ⟨hr, rfl⟩ := RouteRepository.get_eq_some hget
      obtain ⟨howned, husable⟩ := hproper r hr List.mem_cons_self
      refine (Keeps.write hr howned ?_ ?_).trans (ih h fun x hx hid => ?_)
      · exact howned
      · exact husable
      obtain ⟨old, hold, hsame, horg, hdests⟩ := repriced_row hx
      rw [← horg, ← hdests]
      exact hproper old hold (hsame ▸ List.mem_cons_of_mem _ hid)

theorem reorderRoutes_keeps (hscope : hasGlobalScope user = false) {routeIds : List String}
    (h : Proper user.organizationId env user db (.route (.reorder routeIds))) :
    Keeps user.organizationId db (reorderRoutes env user db routeIds).2 := by
  rw [reorderRoutes, resolveScope_tenant hscope]
  simp only
  split
  · exact .refl db
  rename_i herrors
  rw [RouteRepository.reorderRoutes]
  cases hfrom : RouteRepository.reorderFrom env user.organizationId false user.username 10
      routeIds 1 db with
  | error e =>
    cases e with
    | notFound message => exact .refl db
    | outside message => exact .refl db
  | ok db' =>
    apply reorderFrom_keeps hfrom
    intro r hr hid
    exact h (reorderFrom_visible hfrom) (of_not_not herrors) r.id hid r
      (RouteRepository.get_of_mem hr)

end Reorder

section Import
variable {c : ImportScope} {o : ConfigDiff}

theorem importDestination_keeps {d : DestinationRead}
    (horg : owns c.effectiveOrg c.effectiveOrg = true)
    (h : ImportScope.Taken env c db (.destination d) db')
    (hproper : ProperEntry c.effectiveOrg c db (.destination d)) :
    Keeps c.effectiveOrg db db' := by
  cases h with
  | unchanged => exact .refl db
  | createdDestination _ _ hrow _ _ hrows hwritten =>
    apply Keeps.destinations_written hwritten
    · rw [foreignDestinations, hrows, List.filter_append, List.filter_cons_of_neg]
      · exact List.append_nil _
      · rw [hrow, Bool.not_eq_true, Bool.not_eq_false']
        exact horg
    · intro x hx
      exact ⟨x, by rw [hrows]; exact List.mem_append_left _ hx, rfl, rfl⟩
  | updatedDestination hfind hdiffers hrows hwritten =>
    have howned := hproper _ hfind hdiffers
    obtain ⟨hr, -⟩ := ImportScope.findDestination_mem hfind
    apply Keeps.destinations_written hwritten
    · rw [foreignDestinations, hrows]
      apply KeyedRows.filter_modify
      intro x hx hid
      rw [List.inj_on_of_nodup_map db.destinationKeys hx hr hid]
      exact ⟨by rw [howned]; rfl, by rw [Bool.not_eq_false']; exact howned⟩
    · intro x hx
      refine ⟨_, by rw [hrows]; exact KeyedRows.mem_modify.2 ⟨x, hx, rfl⟩, ?_⟩
      split
      · exact ⟨rfl, rfl⟩
      · exact ⟨rfl, rfl⟩

theorem importRoute_keeps {x : RouteRead} (happly : c.dryRun = false)
    (horg : owns c.effectiveOrg c.effectiveOrg = true)
    (h : c.importRoute env db [] x = .ok (o, db'))
    (hproper : ProperEntry c.effectiveOrg c db (.route x)) : Keeps c.effectiveOrg db db' := by
  obtain ⟨hfound, hmissing⟩ := hproper
  rw [ImportScope.importRoute, ImportScope.map_resolveDestId] at h
  cases hfind : c.findRoute db x.name with
  | none =>
    simp only [hfind, happly, Bool.false_eq_true, if_false] at h
    split at h
    · cases h
    rename_i hadd
    cases h
    refine .add hadd horg (hmissing hfind ?_)
    rw [RouteRepository.add] at hadd
    split at hadd
    · cases hadd
    · rename_i hexists
      simpa using hexists
  | some r =>
    simp only [hfind, happly, Bool.false_eq_true, if_false] at h
    split at h
    · rename_i hdiffers
      obtain ⟨howned, husable⟩ := hfound r hfind hdiffers
      obtain ⟨hr, -⟩ := ImportScope.findRoute_mem hfind
      rw [RouteRepository.update_ok env _ (RouteRepository.get_of_mem hr) rfl] at h
      cases h
      exact .write hr howned howned husable
    · cases h
      exact .refl db

theorem importConfig_keeps (hscope : hasGlobalScope user = false)
    (horg : user.organizationId.isSome = true) {req : ImportRequest}
    (h : Proper user.organizationId env user db (.route (.importConfig req))) :
    Keeps user.organizationId db (importConfig env user db req).2 := by
  cases hrequest : importScope env user req with
  | error e =>
    rw [importConfig_rejected hrequest]
    exact .refl db
  | ok c =>
    have horgs : c.effectiveOrg = user.organizationId := by
      rw [importScope, resolveScope_tenant hscope] at hrequest
      simp only at hrequest
      split at hrequest
      · cases hrequest
      split at hrequest
      · cases hrequest
      · cases hrequest
        rfl
    rw [importConfig_db hrequest]
    cases hdry : c.dryRun with
    | true =>
      rw [Batch.still fun e _ => ImportScope.importEntry_dry hdry e]
      exact .refl db
    | false =>
      have hown : owns c.effectiveOrg c.effectiveOrg = true := by
        rw [horgs]
        simp [owns, horg]
      rw [← horgs]
      refine Batch.keeps (P := ProperEntry c.effectiveOrg c) (fun s => .refl s)
        (fun _ _ _ => .trans) (fun s e o s' hproper hstep => ?_) (horgs ▸ h c hrequest hdry)
      cases e with
      | destination d =>
        exact importDestination_keeps hown (ImportScope.importEntry_taken hdry hstep).2 hproper
      | route x => exact importRoute_keeps hdry hown hstep hproper

end Import

theorem serve_keeps {caller : Caller} (hscope : hasGlobalScope caller.user = false)
    {request : TenantRequest}
    (h : Proper caller.user.organizationId env caller.user db request) :
    Keeps caller.user.organizationId db (request.serve env caller db) := by
  rw [TenantRequest.serve.eq_def]
  split
  · rename_i hadmin
    have horg : caller.user.organizationId.isSome = true := by
      rw [Caller.isAdmin, Bool.and_eq_true, decide_eq_true_eq] at hadmin
      rw [hasGlobalScope, if_pos hadmin.1, Bool.or_eq_false_iff] at hscope
      rw [← Option.not_isNone, hscope.2]
      rfl
    cases request with
    | delete routeId => exact deleteRoute_keeps hscope routeId
    | route request =>
      cases request with
      | create p => exact createRoute_keeps hscope horg p
      | update routeId u => exact updateRoute_keeps hscope horg h
      | reorder routeIds => exact reorderRoutes_keeps hscope h
      | importConfig req => exact importConfig_keeps hscope horg h
      | rollback routeId auditId => exact rollbackRoute_keeps hscope h
  · exact .refl db

theorem run_keeps {caller : Caller} (hscope : hasGlobalScope caller.user = false)
    {calls : List (ConfigEnv × TenantRequest)} (h : ProperRun caller calls db) :
    Keeps caller.user.organizationId db (TenantRequest.serveAll caller calls db) := by
  induction calls generalizing db with
  | nil => exact .refl db
  | cons c calls ih => exact (serve_keeps hscope h.1).trans (ih h.2)

/-- A tenant whose requests all keep to the rule changes nothing that is shared or foreign. -/
theorem tenant_confined {caller : Caller} (hscope : hasGlobalScope caller.user = false)
    {calls : List (ConfigEnv × TenantRequest)} (h : ProperRun caller calls db) :
    Confined caller.user.organizationId db (TenantRequest.serveAll caller calls db) :=
  (run_keeps hscope h).confined

end Requests

section Example

/-- A destination that all organizations share. -/
def sharedSiem : ConfigDb where
  organizations := [1]
  destinations := [⟨"x", syslogRow "siem" none, false⟩]
  destinationKeys := List.nodup_singleton _
  destinationNames := List.nodup_singleton _

def tenant : Caller where
  user := orgAdmin 1

/-- A new route to the shared destination, which its author then renames. -/
def tenantCalls : List (ConfigEnv × TenantRequest) :=
  [(plainEnv, .route (.create ⟨"all", { destinationIds := ["x"] }, none⟩)),
    (plainEnv, .route (.update "x" { name := some "everything", destinationIds := some ["x"] }))]

theorem tenantCalls_confined : tenantCalls.length = 2 ∧
    (TenantRequest.serveAll tenant tenantCalls sharedSiem).routes.map (·.name) = ["everything"] ∧
      Confined (some 1) sharedSiem (TenantRequest.serveAll tenant tenantCalls sharedSiem) := by
  have hproper : ProperRun tenant tenantCalls sharedSiem := by
    refine ⟨trivial, fun r _ _ _ hids => ?_, trivial⟩
    cases hids
  exact ⟨rfl, by decide +kernel, tenant_confined rfl hproper⟩

/-- A bundle of the tenant that turns the shared destination off. -/
def siemOff : ImportRequest where
  bundle := { exportedAt := 0, destinations := [{ syslogEntry "siem" with enabled := false }] }
  dryRun := false

theorem siemOff_not_confined : hasGlobalScope tenant.user = false ∧
    ¬ Confined tenant.user.organizationId sharedSiem
      (TenantRequest.serveAll tenant [(plainEnv, .route (.importConfig siemOff))] sharedSiem) := by
  refine ⟨rfl, fun h => absurd h.destinations ?_⟩
  decide +kernel

end Example

end CentralOps
