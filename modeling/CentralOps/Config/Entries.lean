import CentralOps.Config.Bundle

namespace CentralOps
set_option autoImplicit true

inductive BundleEntry where
  | destination (dest : DestinationRead)
  | route (route : RouteRead)

def BundleEntry.name : BundleEntry → String
  | .destination d => d.name
  | .route r => r.name

/-- The entries of a bundle as an import takes them. -/
def ConfigBundle.entries (b : ConfigBundle) : List BundleEntry :=
  b.destinations.map .destination ++ b.routes.map .route

/-- A statement on destinations, which the trail records. -/
structure DestinationsWritten (db db' : ConfigDb) : Prop where
  organizations : db'.organizations = db.organizations
  routes : db'.routes = db.routes
  routeAudit : db'.routeAudit = db.routeAudit
  audited : db'.destinationAudit.length = db.destinationAudit.length + 1

/-- A statement on a route, which the trail records under its id. -/
structure RouteWritten (id : String) (db db' : ConfigDb) : Prop where
  organizations : db'.organizations = db.organizations
  destinations : db'.destinations = db.destinations
  destinationAudit : db'.destinationAudit = db.destinationAudit
  audited : ∃ entry, entry.routeId = id ∧ db'.routeAudit = db.routeAudit ++ [entry]

namespace DestinationRepository
variable {db : ConfigDb} {id : String} {r : DestinationRecord}

theorem get_of_mem (hr : r ∈ db.destinations) : get db r.id = some r :=
  KeyedRows.get_of_mem db.destinationKeys hr rfl

theorem get_eq_some (h : get db id = some r) : r ∈ db.destinations ∧ r.id = id :=
  KeyedRows.get_eq_some h

theorem mem_list {orgId : Option Int} {globalScope : Bool} {limit : Nat}
    (h : r ∈ list db orgId globalScope limit) :
    r ∈ db.destinations ∧ visibleTo orgId globalScope r.row.organizationId = true := by
  rw [list] at h
  exact List.mem_filter.1 ((List.mem_insertionSort nameLe).1 (List.mem_of_mem_take h))

theorem update_ok (env : ConfigEnv) (u : DestinationChanges) (hget : get db id = some r)
    (hname : u.name = none) (horg : u.organizationId = none) (actor : Option String) :
    ∃ db', update env db id u actor = .ok (some (changed env u r), db') ∧
      db'.destinations = KeyedRows.modify (·.id) db.destinations id (changed env u) ∧
      DestinationsWritten db db' := by
  have hnames : (KeyedRows.modify (fun x : DestinationRecord => x.id) db.destinations id
      (changed env u)).map (fun x => x.row.name) = db.destinations.map (fun x => x.row.name) := by
    apply KeyedRows.map_modify
    intro x
    change u.name.getD x.row.name = x.row.name
    rw [hname]
    rfl
  have hnodup : ((KeyedRows.modify (fun x : DestinationRecord => x.id) db.destinations id
      (changed env u)).map (fun x => x.row.name)).Nodup := by
    rw [hnames]
    exact db.destinationNames
  rw [update, hget]
  simp only [horg, Option.any_none, Bool.false_eq_true, if_false, dif_pos hnodup]
  exact ⟨_, rfl, rfl, rfl, rfl, rfl, List.length_append⟩

theorem add_cases (env : ConfigEnv) (db : ConfigDb) (a : NewDestination) (actor : Option String) :
    ((db.hasOrganization a.organizationId = false ∨ a.name ∈ db.destinations.map (·.row.name)) ∧
      ∃ e, add env db a actor = .error e) ∨
    (db.hasOrganization a.organizationId = true ∧ a.name ∉ db.destinations.map (·.row.name) ∧
      ∃ r db', add env db a actor = .ok (r, db') ∧ r.row = .add env.rt env.dumps a env.now ∧
        r.isDefault = false ∧ r.id = env.ids.next (db.destinations.map (·.id)) ∧
        db'.destinations = db.destinations ++ [r] ∧ DestinationsWritten db db') := by
  rw [add]
  cases horg : db.hasOrganization a.organizationId with
  | false => exact .inl ⟨.inl rfl, _, rfl⟩
  | true =>
    by_cases hname : a.name ∈ db.destinations.map (·.row.name)
    · simp only [Bool.not_true, Bool.false_eq_true, if_false, dif_pos hname]
      exact .inl ⟨.inr hname, _, rfl⟩
    · simp only [Bool.not_true, Bool.false_eq_true, if_false, dif_neg hname]
      exact .inr ⟨trivial, hname, _, _, rfl, rfl, rfl, rfl, rfl, rfl, rfl, rfl,
        List.length_append⟩

end DestinationRepository

namespace RouteRepository
variable {db : ConfigDb} {id : String} {r : RouteRecord}

theorem get_of_mem (hr : r ∈ db.routes) : get db r.id = some r :=
  KeyedRows.get_of_mem db.routeKeys hr rfl

theorem get_eq_some (h : get db id = some r) : r ∈ db.routes ∧ r.id = id :=
  KeyedRows.get_eq_some h

theorem mem_list {orgId : Option Int} {globalScope : Bool} {limit : Nat}
    (h : r ∈ list db orgId globalScope limit) :
    r ∈ db.routes ∧ visibleTo orgId globalScope r.organizationId = true := by
  rw [list] at h
  exact List.mem_filter.1 ((List.mem_insertionSort recordLe).1 (List.mem_of_mem_take h))

theorem update_ok (env : ConfigEnv) (u : RouteChanges) (hget : get db id = some r)
    (horg : u.organizationId = none)
    (actor : Option String) (action : String) :
    update env db id u actor action = .ok (some (r.update u), write env db r u action actor) := by
  rw [update, hget]
  simp only [horg, Option.any_none, Bool.false_eq_true, if_false]

theorem write_written (env : ConfigEnv) (r : RouteRecord) (u : RouteChanges) (action : String)
    (actor : Option String) : RouteWritten r.id db (write env db r u action actor) :=
  ⟨rfl, rfl, rfl, _, rfl, rfl⟩

theorem add_cases (env : ConfigEnv) (db : ConfigDb) (name : String) (settings : RouteSettings)
    (org : Option Int) (actor : Option String) :
    (db.hasOrganization org = false ∧ ∃ e, add env db name settings org actor = .error e) ∨
    (db.hasOrganization org = true ∧ ∃ r db', add env db name settings org actor = .ok (r, db') ∧
      r = ⟨env.ids.next (db.routes.map (·.id)), name, settings.stored, org⟩ ∧
      db'.routes = db.routes ++ [r] ∧ RouteWritten r.id db db') := by
  rw [add]
  cases horg : db.hasOrganization org with
  | false => exact .inl ⟨rfl, _, rfl⟩
  | true => exact .inr ⟨rfl, _, _, rfl, rfl, rfl, rfl, rfl, rfl, _, rfl, rfl⟩

end RouteRepository

namespace ImportScope
variable (env : ConfigEnv) (c : ImportScope)

def importEntry (db : ConfigDb) : BundleEntry → Except DbError (ConfigDiff × ConfigDb)
  | .destination d => (c.importDestination env db d).map (fun p => (p.1.diff, p.2))
  | .route r => c.importRoute env db [] r

def finds (db : ConfigDb) : BundleEntry → Option String
  | .destination d => (c.findDestination db d.name).map (·.id)
  | .route r => (c.findRoute db r.name).map (·.id)

def differs (db : ConfigDb) : BundleEntry → Bool
  | .destination d => (c.findDestination db d.name).any (fun r => c.destinationDiffers r d)
  | .route r => (c.findRoute db r.name).any
      (fun x => routeDiffers x.settings r.settings r.settings.destinationIds)

def announce (db : ConfigDb) (e : BundleEntry) : ConfigDiff where
  name := e.name
  status :=
    if (c.finds db e).isNone then "created" else if c.differs db e then "updated" else "unchanged"
  id := c.finds db e

/-- Nothing is written for an entry whose row is as it says. -/
def Settled (db : ConfigDb) (e : BundleEntry) : Prop :=
  (c.finds db e).isSome = true ∧ c.differs db e = false

def Refused (db : ConfigDb) (e : BundleEntry) : Prop :=
  c.finds db e = none ∧ (db.hasOrganization c.effectiveOrg = false ∨
    match e with
    | .destination d => d.name ∈ db.destinations.map (·.row.name)
    | .route _ => False)

variable {env c} {db : ConfigDb}

theorem resolveDestId_eq (names : List (String × String)) (did : String) :
    resolveDestId db names did = did := by
  rw [resolveDestId]
  split
  · rfl
  · split
    · rfl
    · split
      · rfl
      · rfl

theorem map_resolveDestId (names : List (String × String)) (ids : List String) :
    ids.map (resolveDestId db names) = ids := by
  rw [List.map_congr_left (fun did _ => resolveDestId_eq names did), List.map_id']

theorem importRoute_names (names : List (String × String)) (route : RouteRead) :
    c.importRoute env db names route = c.importRoute env db [] route := by
  rw [importRoute, importRoute, map_resolveDestId, map_resolveDestId]

theorem findDestination_mem {name : String} {r : DestinationRecord}
    (h : c.findDestination db name = some r) : r ∈ db.destinations ∧ r.row.name = name ∧
      visibleTo c.effectiveOrg c.isGlobal r.row.organizationId = true := by
  rw [findDestination, destByName] at h
  obtain ⟨hmem, hvisible⟩ := DestinationRepository.mem_list (List.mem_of_find?_eq_some h)
  have hname := List.find?_some (p := fun r : DestinationRecord => decide (r.row.name = name)) h
  exact ⟨hmem, of_decide_eq_true hname, hvisible⟩

theorem findRoute_mem {name : String} {r : RouteRecord}
    (h : c.findRoute db name = some r) : r ∈ db.routes ∧ r.name = name ∧
      visibleTo c.effectiveOrg c.isGlobal r.organizationId = true := by
  rw [findRoute, routeByName] at h
  obtain ⟨hmem, hvisible⟩ := RouteRepository.mem_list (List.mem_of_find?_eq_some h)
  have hname := List.find?_some (p := fun r : RouteRecord => decide (r.name = name)) h
  exact ⟨hmem, of_decide_eq_true hname, hvisible⟩

/-- What taking an entry does. -/
inductive Taken (env : ConfigEnv) (c : ImportScope) (db : ConfigDb) :
    BundleEntry → ConfigDb → Prop where
  | unchanged : c.Settled db e → Taken env c db e db
  | createdDestination {d : DestinationRead} {r : DestinationRecord} {db' : ConfigDb} :
    c.findDestination db d.name = none → d.name ∉ db.destinations.map (·.row.name) →
    r.row = .add env.rt env.dumps (c.newDestination d) env.now → r.isDefault = false →
    r.id = env.ids.next (db.destinations.map (·.id)) →
    db'.destinations = db.destinations ++ [r] → DestinationsWritten db db' →
    Taken env c db (.destination d) db'
  | updatedDestination {d : DestinationRead} {r : DestinationRecord} {db' : ConfigDb} :
    c.findDestination db d.name = some r → c.destinationDiffers r d = true →
    db'.destinations = KeyedRows.modify (·.id) db.destinations r.id
      (DestinationRepository.changed env (c.destinationChanges d)) → DestinationsWritten db db' →
    Taken env c db (.destination d) db'
  | createdRoute {x : RouteRead} {r : RouteRecord} {db' : ConfigDb} :
    c.findRoute db x.name = none →
    r = ⟨env.ids.next (db.routes.map (·.id)), x.name, x.settings.stored, c.effectiveOrg⟩ →
    db'.routes = db.routes ++ [r] → RouteWritten r.id db db' → Taken env c db (.route x) db'
  | updatedRoute {x : RouteRead} {r : RouteRecord} :
    c.findRoute db x.name = some r →
    routeDiffers r.settings x.settings x.settings.destinationIds = true →
    Taken env c db (.route x)
      (RouteRepository.write env db r (.ofSettings x.settings) "imported" c.username)

theorem importDestination_cases (env : ConfigEnv) (db : ConfigDb) (happly : c.dryRun = false)
    (d : DestinationRead) :
    (c.Refused db (.destination d) ∧ ∃ x, c.importDestination env db d = .error x) ∨
    (¬ c.Refused db (.destination d) ∧ ∃ o db', c.importDestination env db d = .ok (o, db') ∧
      o.diff = c.announce db (.destination d) ∧ Taken env c db (.destination d) db') := by
  rw [importDestination]
  cases hfind : c.findDestination db d.name with
  | none =>
    have hfinds : c.finds db (.destination d) = none := congrArg (Option.map _) hfind
    simp only [happly, Bool.false_eq_true, if_false]
    obtain ⟨hrefused, x, hadd⟩ |
        ⟨horg, hname, r, db', hadd, hrow, hdefault, hid, hrows, hwritten⟩ :=
      DestinationRepository.add_cases env db (c.newDestination d) none
    · rw [hadd]
      exact .inl ⟨⟨hfinds, hrefused⟩, x, rfl⟩
    · rw [hadd]
      refine .inr ⟨?_, _, _, rfl, ?_,
        .createdDestination hfind hname hrow hdefault hid hrows hwritten⟩
      · rintro ⟨-, hmissing | htaken⟩
        · exact absurd (horg.symm.trans hmissing) (by decide)
        · exact hname htaken
      · rw [announce, hfinds]
        rfl
  | some r =>
    have hfinds : c.finds db (.destination d) = some r.id := congrArg (Option.map _) hfind
    have haccepted : ¬ c.Refused db (.destination d) := by
      rintro ⟨hnone, -⟩
      rw [hfinds] at hnone
      cases hnone
    have hdiffers : c.differs db (.destination d) = c.destinationDiffers r d :=
      congrArg (Option.any _) hfind
    simp only [happly, Bool.false_eq_true, if_false]
    cases hd : c.destinationDiffers r d with
    | true =>
      obtain ⟨db', hupdate, hrows, hwritten⟩ := DestinationRepository.update_ok env
        (c.destinationChanges d)
        (DestinationRepository.get_of_mem (findDestination_mem hfind).1) rfl rfl none
      simp only [if_true, hupdate]
      refine .inr ⟨haccepted, _, _, rfl, ?_, .updatedDestination hfind hd hrows hwritten⟩
      rw [announce, hfinds, hdiffers, hd]
      rfl
    | false =>
      refine .inr ⟨haccepted, _, _, rfl, ?_, .unchanged ⟨?_, hdiffers.trans hd⟩⟩
      · rw [announce, hfinds, hdiffers, hd]
        rfl
      · rw [hfinds]
        rfl

theorem importRoute_cases (env : ConfigEnv) (db : ConfigDb) (happly : c.dryRun = false)
    (x : RouteRead) :
    (c.Refused db (.route x) ∧ ∃ e, c.importRoute env db [] x = .error e) ∨
    (¬ c.Refused db (.route x) ∧ ∃ o db', c.importRoute env db [] x = .ok (o, db') ∧
      o = c.announce db (.route x) ∧ Taken env c db (.route x) db') := by
  rw [importRoute, map_resolveDestId]
  cases hfind : c.findRoute db x.name with
  | none =>
    have hfinds : c.finds db (.route x) = none := congrArg (Option.map _) hfind
    simp only [happly, Bool.false_eq_true, if_false]
    obtain ⟨hmissing, e, hadd⟩ | ⟨horg, r, db', hadd, hr, hrows, hwritten⟩ :=
      RouteRepository.add_cases env db x.name x.settings c.effectiveOrg c.username
    · rw [hadd]
      exact .inl ⟨⟨hfinds, .inl hmissing⟩, e, rfl⟩
    · rw [hadd]
      refine .inr ⟨?_, _, _, rfl, ?_, .createdRoute hfind hr hrows hwritten⟩
      · rintro ⟨-, hmissing | hfalse⟩
        · exact absurd (horg.symm.trans hmissing) (by decide)
        · exact hfalse
      · rw [announce, hfinds]
        rfl
  | some r =>
    have hfinds : c.finds db (.route x) = some r.id := congrArg (Option.map _) hfind
    have haccepted : ¬ c.Refused db (.route x) := by
      rintro ⟨hnone, -⟩
      rw [hfinds] at hnone
      cases hnone
    have hdiffers : c.differs db (.route x) =
        routeDiffers r.settings x.settings x.settings.destinationIds :=
      congrArg (Option.any _) hfind
    simp only [happly, Bool.false_eq_true, if_false]
    cases hd : routeDiffers r.settings x.settings x.settings.destinationIds with
    | true =>
      have hupdate := RouteRepository.update_ok env
        (RouteChanges.ofSettings x.settings)
        (RouteRepository.get_of_mem (findRoute_mem hfind).1) rfl c.username "imported"
      simp only [if_true, hupdate]
      refine .inr ⟨haccepted, _, _, rfl, ?_, .updatedRoute hfind hd⟩
      rw [announce, hfinds, hdiffers, hd]
      rfl
    | false =>
      refine .inr ⟨haccepted, _, _, rfl, ?_, .unchanged ⟨?_, hdiffers.trans hd⟩⟩
      · rw [announce, hfinds, hdiffers, hd]
        rfl
      · rw [hfinds]
        rfl

theorem importEntry_cases (env : ConfigEnv) (db : ConfigDb) (happly : c.dryRun = false)
    (e : BundleEntry) :
    (c.Refused db e ∧ ∃ x, c.importEntry env db e = .error x) ∨
    (¬ c.Refused db e ∧ ∃ db', c.importEntry env db e = .ok (c.announce db e, db') ∧
      Taken env c db e db') := by
  cases e with
  | destination d =>
    obtain ⟨hrefused, x, hx⟩ | ⟨haccepted, o, db', ho, hdiff, htaken⟩ :=
      importDestination_cases env db happly d
    · exact .inl ⟨hrefused, x, by rw [importEntry, hx]; rfl⟩
    · refine .inr ⟨haccepted, db', ?_, htaken⟩
      rw [importEntry, ho, ← hdiff]
      rfl
  | route x =>
    obtain ⟨hrefused, e, he⟩ | ⟨haccepted, o, db', ho, rfl, htaken⟩ :=
      importRoute_cases env db happly x
    · exact .inl ⟨hrefused, e, he⟩
    · exact .inr ⟨haccepted, db', ho, htaken⟩

theorem importEntry_refused (happly : c.dryRun = false) {e : BundleEntry} :
    c.Refused db e ↔ ∃ x, c.importEntry env db e = .error x := by
  obtain ⟨hrefused, hx⟩ | ⟨haccepted, db', ho, -⟩ := importEntry_cases env db happly e
  · exact ⟨fun _ => hx, fun _ => hrefused⟩
  · constructor
    · intro hrefused
      exact absurd hrefused haccepted
    · rintro ⟨x, hx⟩
      rw [ho] at hx
      cases hx

theorem importEntry_taken (happly : c.dryRun = false) {e : BundleEntry} {o : ConfigDiff}
    {db' : ConfigDb} (h : c.importEntry env db e = .ok (o, db')) :
    o = c.announce db e ∧ Taken env c db e db' := by
  obtain ⟨-, x, hx⟩ | ⟨-, t, ho, htaken⟩ := importEntry_cases env db happly e
  · rw [hx] at h
    cases h
  · rw [ho] at h
    cases h
    exact ⟨rfl, htaken⟩

theorem importEntry_dry (hdry : c.dryRun = true) (e : BundleEntry) :
    c.importEntry env db e = .ok (c.announce db e, db) := by
  cases e with
  | destination d =>
    rw [importEntry, importDestination]
    cases hfind : c.findDestination db d.name with
    | none =>
      have hfinds : c.finds db (.destination d) = none := congrArg (Option.map _) hfind
      rw [announce, hfinds]
      simp only [hdry, if_true]
      rfl
    | some r =>
      have hfinds : c.finds db (.destination d) = some r.id := congrArg (Option.map _) hfind
      have hdiffers : c.differs db (.destination d) = c.destinationDiffers r d :=
        congrArg (Option.any _) hfind
      rw [announce, hfinds, hdiffers]
      cases hd : c.destinationDiffers r d with
      | true =>
        simp only [hdry, hd, if_true]
        rfl
      | false =>
        simp only [hd, Bool.false_eq_true, if_false]
        rfl
  | route x =>
    rw [importEntry, importRoute, map_resolveDestId]
    cases hfind : c.findRoute db x.name with
    | none =>
      have hfinds : c.finds db (.route x) = none := congrArg (Option.map _) hfind
      rw [announce, hfinds]
      simp only [hdry, if_true]
      rfl
    | some r =>
      have hfinds : c.finds db (.route x) = some r.id := congrArg (Option.map _) hfind
      have hdiffers : c.differs db (.route x) =
          routeDiffers r.settings x.settings x.settings.destinationIds :=
        congrArg (Option.any _) hfind
      rw [announce, hfinds, hdiffers]
      cases hd : routeDiffers r.settings x.settings x.settings.destinationIds with
      | true =>
        simp only [hdry, hd, if_true]
        rfl
      | false =>
        simp only [hd, Bool.false_eq_true, if_false]
        rfl

end ImportScope

section Imports
variable {env : ConfigEnv} {user : AppUser} {db : ConfigDb} {req : ImportRequest} {c : ImportScope}

def ImportRequest.result (req : ImportRequest) (diffs : List ConfigDiff) : ImportResult :=
  ⟨req.dryRun, diffs.take req.bundle.destinations.length,
    diffs.drop req.bundle.destinations.length⟩

theorem batch_destinations (env : ConfigEnv) (c : ImportScope) (dests : List DestinationRead)
    (db : ConfigDb) :
    runBatch (c.importEntry env) (dests.map .destination) db =
      ((runBatch (c.importDestination env) dests db).1.map (List.map DestinationOutcome.diff),
        (runBatch (c.importDestination env) dests db).2) :=
  (Batch.map_entries _ _ _).trans (Batch.map_outputs _ _ _)

theorem batch_routes (names : List (String × String)) (routes : List RouteRead) (db : ConfigDb) :
    runBatch (fun db x => c.importRoute env db names x) routes db =
      runBatch (c.importEntry env) (routes.map .route) db := by
  rw [Batch.map_entries]
  have hstep : (fun db x => c.importRoute env db names x) =
      fun db x => c.importEntry env db (.route x) :=
    funext fun _ => funext fun x => ImportScope.importRoute_names names x
  rw [hstep]

/-- An import takes its destinations and routes as one batch. -/
theorem importConfig_eq (h : importScope env user req = .ok c) :
    importConfig env user db req =
      (match (runBatch (c.importEntry env) req.bundle.entries db).1 with
        | .error e => .error (.db e)
        | .ok diffs => .ok (req.result diffs),
      (runBatch (c.importEntry env) req.bundle.entries db).2) := by
  rw [importConfig, h, ConfigBundle.entries]
  simp only []
  have hdests := batch_destinations env c req.bundle.destinations db
  cases hbatch : runBatch (c.importDestination env) req.bundle.destinations db with
  | mk result next =>
    rw [hbatch] at hdests
    cases result with
    | error e => rw [Batch.append_error hdests]
    | ok outcomes =>
      rw [Batch.append_ok hdests]
      simp only [batch_routes]
      have hlength : (outcomes.map DestinationOutcome.diff).length =
          req.bundle.destinations.length := by
        rw [List.length_map]
        exact Batch.length_outputs (congrArg Prod.fst hbatch)
      cases hroutes : runBatch (c.importEntry env) (req.bundle.routes.map .route) next with
      | mk result last =>
        cases result with
        | error e => rfl
        | ok diffs =>
          simp only [Except.map, ImportRequest.result, ← hlength, List.take_left', List.drop_left']

theorem importConfig_db (h : importScope env user req = .ok c) :
    (importConfig env user db req).2 = (runBatch (c.importEntry env) req.bundle.entries db).2 := by
  rw [importConfig_eq h]

theorem importConfig_fails_iff (h : importScope env user req = .ok c) :
    (∃ e, (importConfig env user db req).1 = .error e) ↔
      ∃ x, (runBatch (c.importEntry env) req.bundle.entries db).1 = .error x := by
  rw [importConfig_eq h]
  cases (runBatch (c.importEntry env) req.bundle.entries db).1 with
  | error x => exact ⟨fun _ => ⟨x, rfl⟩, fun _ => ⟨_, rfl⟩⟩
  | ok diffs => exact ⟨nofun, nofun⟩

theorem importConfig_ok_iff {result : ImportResult} (h : importScope env user req = .ok c) :
    (importConfig env user db req).1 = .ok result ↔
      ∃ diffs, (runBatch (c.importEntry env) req.bundle.entries db).1 = .ok diffs ∧
        req.result diffs = result := by
  rw [importConfig_eq h]
  cases (runBatch (c.importEntry env) req.bundle.entries db).1 with
  | error x => exact ⟨nofun, nofun⟩
  | ok diffs =>
    constructor
    · intro hresult
      exact ⟨diffs, rfl, Except.ok.inj hresult⟩
    · rintro ⟨_, hdiffs, rfl⟩
      cases hdiffs
      rfl

theorem importConfig_rejected {e : ApiError} (h : importScope env user req = .error e) :
    importConfig env user db req = (.error (.api e), db) := by
  rw [importConfig, h]

end Imports

end CentralOps
