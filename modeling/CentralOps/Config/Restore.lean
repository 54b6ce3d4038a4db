import CentralOps.Config.Import

namespace CentralOps
set_option autoImplicit true

def givenIds (ids : IdSource String) (used : List String) : Nat → List String
  | 0 => []
  | n + 1 => ids.next used :: givenIds ids (used ++ [ids.next used]) n

/-- What a destination says, up to its id, its credential and the order of keys. -/
structure DestinationContent where
  name : String
  kind : String
  config : Obj
  delivery : Obj
  enabled : Bool
  dataResidency : Option String
  isDefault : Bool

def DestinationRecord.content (r : DestinationRecord) : DestinationContent where
  name := r.row.name
  kind := r.row.kind
  config := sortObj r.row.config
  delivery := sortObj r.row.delivery
  enabled := r.row.enabled
  dataResidency := r.row.dataResidency
  isDefault := r.isDefault

structure RouteContent where
  name : String
  settings : RouteSettings
  destinations : List (Option String)

def ConfigDb.nameOf (db : ConfigDb) (did : String) : Option String :=
  (DestinationRepository.get db did).map (·.row.name)

def RouteSettings.unresolved (s : RouteSettings) : RouteSettings :=
  { s with
    condition := sortObj s.condition
    piiRedaction := s.piiRedaction.sorted
    destinationIds := [] }

def RouteRecord.content (db : ConfigDb) (r : RouteRecord) : RouteContent :=
  ⟨r.name, r.settings.unresolved, r.settings.destinationIds.map db.nameOf⟩

section Restored
variable (env : ConfigEnv) (user : AppUser) (db : ConfigDb)

def ownDestinations : List DestinationRecord :=
  db.destinations.filter
    (fun r => visibleTo (resolveScope user).2 (resolveScope user).1 r.row.organizationId)

def ownRoutes : List RouteRecord :=
  db.routes.filter
    (fun r => visibleTo (resolveScope user).2 (resolveScope user).1 r.organizationId)

/-- What the caller sees fits into a bundle, routes have names of their own, and what they name is
exported. -/
structure Exportable : Prop where
  destinations : (ownDestinations user db).length ≤ 1000
  routes : (ownRoutes user db).length ≤ 1000
  names : ((ownRoutes user db).map (·.name)).Nodup
  targets : ∀ r ∈ ownRoutes user db, ∀ did ∈ r.settings.destinationIds,
    ∃ d ∈ ownDestinations user db, d.id = did

/-- A database of the caller's organization without destinations and routes. -/
structure Blank (target : ConfigDb) : Prop where
  destinations : target.destinations = []
  routes : target.routes = []
  organization : target.hasOrganization (resolveScope user).2 = true

def restoreRequest : ImportRequest where
  bundle := exportConfig env user db
  dryRun := false

/-- The import of what is exported gives it back. -/
def RestoresExport (target : ConfigDb) : Prop :=
  ∃ result restored, importConfig env user target (restoreRequest env user db) =
      (.ok result, restored) ∧
    (restored.destinations.map (·.content)).Perm ((ownDestinations user db).map (·.content)) ∧
    (restored.routes.map (·.content restored)).Perm ((ownRoutes user db).map (·.content db))

/-- The importer accepts every route, and a redaction says something; no destination has a residency
or is the default; and one that a route names gets its id again. -/
structure Restorable : Prop where
  accepted : ∀ r ∈ ownRoutes user db, validateRouteRead env.rt (routeRowToRead r) = none
  redacted : ∀ r ∈ ownRoutes user db,
    r.settings.piiRedaction.truthy = true ∨ r.settings.piiRedaction = .null
  plain : ∀ d ∈ ownDestinations user db, d.row.dataResidency = none ∧ d.isDefault = false
  kept : ∀ r ∈ ownRoutes user db, ∀ d ∈ ownDestinations user db, d.id ∈ r.settings.destinationIds →
    (d, d.id) ∈ (DestinationRepository.list db (resolveScope user).2 (resolveScope user).1 1000).zip
      (givenIds env.ids [] (ownDestinations user db).length)

end Restored

namespace DestinationRepository
variable {db : ConfigDb} {orgId : Option Int} {globalScope : Bool} {limit : Nat}

theorem list_perm (h : (db.destinations.filter
      (fun r => visibleTo orgId globalScope r.row.organizationId)).length ≤ limit) :
    (list db orgId globalScope limit).Perm
      (db.destinations.filter (fun r => visibleTo orgId globalScope r.row.organizationId)) := by
  rw [list, List.take_of_length_le (by rw [List.length_insertionSort]; exact h)]
  exact List.perm_insertionSort _ _

end DestinationRepository

namespace RouteRepository
variable {db : ConfigDb} {orgId : Option Int} {globalScope : Bool} {limit : Nat}

theorem list_perm (h : (db.routes.filter
      (fun r => visibleTo orgId globalScope r.organizationId)).length ≤ limit) :
    (list db orgId globalScope limit).Perm
      (db.routes.filter (fun r => visibleTo orgId globalScope r.organizationId)) := by
  rw [list, List.take_of_length_le (by rw [List.length_insertionSort]; exact h)]
  exact List.perm_insertionSort _ _

end RouteRepository

namespace ImportScope
variable (env : ConfigEnv) {c : ImportScope} (db : ConfigDb)

/-- The row that is created for an exported destination under an id. -/
def created (c : ImportScope) (d : DestinationRead) (id : String) :
    DestinationRecord :=
  ⟨id, .add env.rt env.dumps (c.newDestination d) env.now, false⟩

theorem import_new_destinations (happly : c.dryRun = false) (dests : List DestinationRead)
    (hnames : (db.destinations.map (·.row.name) ++ dests.map (·.name)).Nodup)
    (horg : db.hasOrganization c.effectiveOrg = true) :
    ∃ diffs db', runBatch (c.importEntry env) (dests.map .destination) db = (.ok diffs, db') ∧
      db'.destinations = db.destinations ++ List.zipWith (created env c) dests
        (givenIds env.ids (db.destinations.map (·.id)) dests.length) ∧
      db'.routes = db.routes ∧ db'.organizations = db.organizations := by
  induction dests generalizing db with
  | nil => exact ⟨[], db, rfl, (List.append_nil _).symm, rfl, rfl⟩
  | cons d dests ih =>
    have hnew : d.name ∉ db.destinations.map (·.row.name) := fun hmem =>
      (List.nodup_append.1 hnames).2.2 _ hmem _ List.mem_cons_self rfl
    have hfind : c.findDestination db d.name = none := by
      cases hrow : c.findDestination db d.name with
      | none => rfl
      | some r =>
        obtain ⟨hmem, hname, -⟩ := findDestination_mem hrow
        exact absurd (hname ▸ List.mem_map_of_mem hmem) hnew
    obtain ⟨⟨-, hmissing | htaken⟩, -⟩ | ⟨-, s, hstep, hwritten⟩ :=
      importEntry_cases env db happly (.destination d)
    · exact absurd (horg.symm.trans hmissing) (by decide)
    · exact absurd htaken hnew
    · cases hwritten with
      | unchanged hsettled =>
        have hsome := hsettled.1
        rw [finds, hfind] at hsome
        cases hsome
      | updatedDestination hrow =>
        rw [hfind] at hrow
        cases hrow
      | @createdDestination _ r _ _ _ hrow hdefault hid hrows hwritten =>
        have hr : r = created env c d (env.ids.next (db.destinations.map (·.id))) := by
          rw [created, ← hrow, ← hid, ← hdefault]
        have hids : s.destinations.map (·.id) = db.destinations.map (·.id) ++
            [env.ids.next (db.destinations.map (·.id))] := by
          rw [hrows, List.map_append, List.map_singleton, hid]
        have hrest : (s.destinations.map (·.row.name) ++ dests.map (·.name)).Nodup := by
          rw [hrows, List.map_append, List.map_singleton, List.append_assoc, hrow]
          exact hnames
        have horg' : s.hasOrganization c.effectiveOrg = true := by
          rw [ConfigDb.hasOrganization, hwritten.organizations]
          exact horg
        obtain ⟨diffs, db', hrun, hdests, hroutes, horgs⟩ := ih _ hrest horg'
        refine ⟨c.announce db (.destination d) :: diffs, db', ?_, ?_,
          hroutes.trans hwritten.routes, horgs.trans hwritten.organizations⟩
        · rw [List.map_cons, Batch.ok_cons hstep, hrun]
          rfl
        · rw [hdests, hids, hrows, List.append_assoc, hr]
          rfl

theorem import_new_routes (happly : c.dryRun = false) (routes : List RouteRead)
    (hnames : (db.routes.map (·.name) ++ routes.map (·.name)).Nodup)
    (horg : db.hasOrganization c.effectiveOrg = true) :
    ∃ diffs db', runBatch (c.importEntry env) (routes.map .route) db = (.ok diffs, db') ∧
      db'.destinations = db.destinations ∧
      db'.routes.map (fun r => (r.name, r.settings)) =
        db.routes.map (fun r => (r.name, r.settings)) ++
          routes.map (fun x => (x.name, x.settings.stored)) := by
  induction routes generalizing db with
  | nil => exact ⟨[], db, rfl, rfl, (List.append_nil _).symm⟩
  | cons x routes ih =>
    have hnew : x.name ∉ db.routes.map (·.name) := fun hmem =>
      (List.nodup_append.1 hnames).2.2 _ hmem _ List.mem_cons_self rfl
    have hfind : c.findRoute db x.name = none := by
      cases hrow : c.findRoute db x.name with
      | none => rfl
      | some r =>
        obtain ⟨hmem, hname, -⟩ := findRoute_mem hrow
        exact absurd (hname ▸ List.mem_map_of_mem hmem) hnew
    obtain ⟨⟨-, hmissing | hfalse⟩, -⟩ | ⟨-, s, hstep, hwritten⟩ :=
      importEntry_cases env db happly (.route x)
    · exact absurd (horg.symm.trans hmissing) (by decide)
    · exact hfalse.elim
    · cases hwritten with
      | unchanged hsettled =>
        have hsome := hsettled.1
        rw [finds, hfind] at hsome
        cases hsome
      | updatedRoute hrow =>
        rw [hfind] at hrow
        cases hrow
      | createdRoute _ hr hrows hwritten =>
        subst hr
        have hrest : (s.routes.map (·.name) ++ routes.map (·.name)).Nodup := by
          rw [hrows, List.map_append, List.map_singleton, List.append_assoc]
          exact hnames
        have horg' : s.hasOrganization c.effectiveOrg = true := by
          rw [ConfigDb.hasOrganization, hwritten.organizations]
          exact horg
        obtain ⟨diffs, db', hrun, hdests, hroutes⟩ := ih _ hrest horg'
        refine ⟨c.announce db (.route x) :: diffs, db', ?_, hdests.trans hwritten.destinations, ?_⟩
        · rw [List.map_cons, Batch.ok_cons hstep, hrun]
          rfl
        · rw [hroutes, hrows, List.map_append, List.append_assoc]
          rfl

end ImportScope

section Restored
variable {env : ConfigEnv} {user : AppUser} {db target : ConfigDb}

def restoreScope (user : AppUser) : ImportScope where
  isGlobal := (resolveScope user).1
  effectiveOrg := (resolveScope user).2
  secrets := []
  dryRun := false
  username := user.username

variable (env user db) in
theorem importScope_restore : importScope env user (restoreRequest env user db) =
    match (restoreRequest env user db).bundle.routes.findSome? (validateRouteRead env.rt) with
    | some e => .error e
    | none => .ok (restoreScope user) := by
  have hscope : validateBundleOrgScope (resolveScope user).2 (resolveScope user).1
      (resolveScope user).2 = none := by
    rw [validateBundleOrgScope]
    split
    · rfl
    · rw [decide_eq_false (not_not.2 rfl), Bool.and_false, if_neg Bool.false_ne_true]
  rw [importScope]
  change (match (validateBundleOrgScope (resolveScope user).2 (resolveScope user).1
    (resolveScope user).2).or _ with | some e => _ | none => _) = _
  rw [hscope, Option.none_or]
  split
  · rfl
  · change Except.ok (ImportScope.mk _ (if (resolveScope user).1 then (resolveScope user).2 else
      (resolveScope user).2) [] false user.username) = _
    rw [ite_self]
    rfl

theorem restoreRequest_destinations : (restoreRequest env user db).bundle.destinations =
    (DestinationRepository.list db (resolveScope user).2 (resolveScope user).1 1000).map
      destRowToRead := rfl

theorem restoreRequest_routes : (restoreRequest env user db).bundle.routes =
    (RouteRepository.list db (resolveScope user).2 (resolveScope user).1 1000).map
      routeRowToRead := rfl

theorem givenIds_length (ids : IdSource String) (used : List String) (n : Nat) :
    (givenIds ids used n).length = n := by
  induction n generalizing used with
  | zero => rfl
  | succ n ih => rw [givenIds, List.length_cons, ih]

/-- The exported destinations with the ids that they get. -/
def regiven (env : ConfigEnv) (user : AppUser) (db : ConfigDb) :
    List (DestinationRecord × String) :=
  (DestinationRepository.list db (resolveScope user).2 (resolveScope user).1 1000).zip
    (givenIds env.ids [] (ownDestinations user db).length)

def restoredRow (env : ConfigEnv) (user : AppUser) (p : DestinationRecord × String) :
    DestinationRecord :=
  (restoreScope user).created env (destRowToRead p.1) p.2

theorem Exportable.exported (h : Exportable user db) :
    (DestinationRepository.list db (resolveScope user).2 (resolveScope user).1 1000).Perm
      (ownDestinations user db) := DestinationRepository.list_perm h.destinations

theorem Exportable.exportedRoutes (h : Exportable user db) :
    (RouteRepository.list db (resolveScope user).2 (resolveScope user).1 1000).Perm
      (ownRoutes user db) := RouteRepository.list_perm h.routes

theorem own_names : ((ownDestinations user db).map (·.row.name)).Nodup :=
  db.destinationNames.sublist (List.filter_sublist.map _)

theorem Exportable.restored (h : Exportable user db) (hblank : Blank user target)
    (haccepted : ∀ r ∈ ownRoutes user db, validateRouteRead env.rt (routeRowToRead r) = none) :
    ∃ result restored, importConfig env user target (restoreRequest env user db) =
        (.ok result, restored) ∧
      restored.destinations = (regiven env user db).map (restoredRow env user) ∧
      restored.routes.map (fun r => (r.name, r.settings)) =
        (RouteRepository.list db (resolveScope user).2 (resolveScope user).1 1000).map
          (fun r => (r.name, r.settings.stored)) := by
  have hscope : importScope env user (restoreRequest env user db) = .ok (restoreScope user) := by
    rw [importScope_restore, List.findSome?_eq_none_iff.2]
    intro x hx
    obtain ⟨r, hr, rfl⟩ := List.mem_map.1 hx
    exact haccepted r (h.exportedRoutes.subset hr)
  obtain ⟨diffs, s, hrun, hdests, hroutes, horgs⟩ :=
    ImportScope.import_new_destinations env target (c := restoreScope user) rfl
      (restoreRequest env user db).bundle.destinations
      (by
        rw [hblank.destinations, List.map_nil, List.nil_append, restoreRequest_destinations,
          List.map_map]
        exact (h.exported.map _).nodup_iff.2 own_names)
      hblank.organization
  obtain ⟨diffs', restored, hrun', hdests', hroutes'⟩ :=
    ImportScope.import_new_routes env s (c := restoreScope user) rfl
      (restoreRequest env user db).bundle.routes
      (by
        rw [hroutes, hblank.routes, List.map_nil, List.nil_append, restoreRequest_routes,
          List.map_map]
        exact (h.exportedRoutes.map _).nodup_iff.2 h.names)
      (by
        rw [ConfigDb.hasOrganization, horgs]
        exact hblank.organization)
  refine ⟨(restoreRequest env user db).result (diffs ++ diffs'), restored, ?_, ?_, ?_⟩
  · rw [importConfig_eq hscope, ConfigBundle.entries, Batch.append_ok hrun, hrun']
    rfl
  · rw [hdests', hdests, hblank.destinations, List.nil_append, restoreRequest_destinations,
      List.length_map, h.exported.length_eq, List.zipWith_map_left, regiven,
      List.map_zip_eq_zipWith]
    rfl
  · rw [hroutes', hroutes, hblank.routes, restoreRequest_routes, List.map_map]
    rfl

variable {restored : ConfigDb}

theorem content_restoredRow (p : DestinationRecord × String) :
    (restoredRow env user p).content =
      { p.1.content with dataResidency := none, isDefault := false } := by
  rw [restoredRow, ImportScope.created, DestinationRecord.content]
  simp only [Destination.add, ImportScope.newDestination, destRowToRead, Option.getD_some,
    sortObj_sortObj]
  rfl

theorem Exportable.restored_contents (h : Exportable user db)
    (hdests : restored.destinations = (regiven env user db).map (restoredRow env user)) :
    restored.destinations.map (·.content) =
      (DestinationRepository.list db (resolveScope user).2 (resolveScope user).1 1000).map
        (fun r => { r.content with dataResidency := none, isDefault := false }) := by
  rw [hdests, List.map_map]
  have hview : (DestinationRecord.content ∘ restoredRow env user) =
      (fun r : DestinationRecord => { r.content with dataResidency := none, isDefault := false }) ∘
        Prod.fst := funext content_restoredRow
  have hlength : (DestinationRepository.list db (resolveScope user).2 (resolveScope user).1
      1000).length ≤ (givenIds env.ids [] (ownDestinations user db).length).length := by
    rw [givenIds_length, h.exported.length_eq]
  rw [hview, ← List.map_map, regiven, List.map_fst_zip hlength]

/-- A name that a route means is kept just where the destination gets its id again. -/
theorem nameOf_restored (h : Exportable user db)
    (hdests : restored.destinations = (regiven env user db).map (restoredRow env user))
    {d : DestinationRecord} (hd : d ∈ ownDestinations user db) :
    restored.nameOf d.id = db.nameOf d.id ↔ (d, d.id) ∈ regiven env user db := by
  have hname : db.nameOf d.id = some d.row.name := by
    rw [ConfigDb.nameOf, DestinationRepository.get_of_mem (List.mem_filter.1 hd).1]
    rfl
  rw [hname, ConfigDb.nameOf, Option.map_eq_some_iff]
  constructor
  · rintro ⟨row, hget, hrow⟩
    obtain ⟨hmem, hid⟩ := DestinationRepository.get_eq_some hget
    rw [hdests] at hmem
    obtain ⟨⟨d', id⟩, hp, rfl⟩ := List.mem_map.1 hmem
    have hd' : d' ∈ ownDestinations user db := h.exported.subset (List.of_mem_zip hp).1
    obtain rfl : d' = d := List.inj_on_of_nodup_map own_names hd' hd hrow
    obtain rfl : id = d'.id := hid
    exact hp
  · intro hp
    have hmem : restoredRow env user (d, d.id) ∈ restored.destinations := by
      rw [hdests]
      exact List.mem_map_of_mem hp
    exact ⟨_, KeyedRows.get_of_mem restored.destinationKeys hmem rfl, rfl⟩

theorem unresolved_stored (s : RouteSettings) :
    s.stored.unresolved = s.unresolved ↔ s.piiRedaction.truthy = true ∨ s.piiRedaction = .null := by
  rw [RouteSettings.unresolved, RouteSettings.unresolved, RouteSettings.stored]
  simp only [sortObj_sortObj, RouteSettings.mk.injEq, true_and, and_true, storedRedaction]
  cases htruthy : s.piiRedaction.truthy with
  | true => simp [Json.sorted_sorted]
  | false =>
    cases s.piiRedaction with
    | null => simp
    | _ => simp [Json.sorted]

theorem Exportable.destinations_iff (h : Exportable user db)
    (hdests : restored.destinations = (regiven env user db).map (restoredRow env user)) :
    (restored.destinations.map (·.content)).Perm ((ownDestinations user db).map (·.content)) ↔
      ∀ d ∈ ownDestinations user db, d.row.dataResidency = none ∧ d.isDefault = false := by
  rw [h.restored_contents hdests, KeyedRows.map_perm_iff DestinationContent.name h.exported
    own_names (fun _ => rfl) (fun _ => rfl)]
  apply forall₂_congr
  intro d _
  rw [DestinationRecord.content, DestinationContent.mk.injEq]
  constructor
  · rintro ⟨-, -, -, -, -, hresidency, hdefault⟩
    exact ⟨hresidency.symm, hdefault.symm⟩
  · rintro ⟨hresidency, hdefault⟩
    exact ⟨rfl, rfl, rfl, rfl, rfl, hresidency.symm, hdefault.symm⟩

theorem Exportable.routes_iff (h : Exportable user db)
    (hdests : restored.destinations = (regiven env user db).map (restoredRow env user))
    (hroutes : restored.routes.map (fun r => (r.name, r.settings)) =
      (RouteRepository.list db (resolveScope user).2 (resolveScope user).1 1000).map
        (fun r => (r.name, r.settings.stored))) :
    (restored.routes.map (·.content restored)).Perm ((ownRoutes user db).map (·.content db)) ↔
      ∀ r ∈ ownRoutes user db,
        (r.settings.piiRedaction.truthy = true ∨ r.settings.piiRedaction = .null) ∧
        ∀ d ∈ ownDestinations user db, d.id ∈ r.settings.destinationIds →
          (d, d.id) ∈ regiven env user db := by
  have hcontent : restored.routes.map (·.content restored) =
      (RouteRepository.list db (resolveScope user).2 (resolveScope user).1 1000).map
        (fun r => RouteContent.mk r.name r.settings.stored.unresolved
          (r.settings.destinationIds.map restored.nameOf)) := by
    have hview := congrArg (List.map (fun p : String × RouteSettings =>
      RouteContent.mk p.1 p.2.unresolved (p.2.destinationIds.map restored.nameOf))) hroutes
    rw [List.map_map, List.map_map] at hview
    exact hview
  rw [hcontent, KeyedRows.map_perm_iff RouteContent.name h.exportedRoutes h.names
    (fun _ => rfl) (fun _ => rfl)]
  apply forall₂_congr
  intro r hr
  rw [RouteRecord.content, RouteContent.mk.injEq, unresolved_stored, List.map_inj_left]
  simp only [true_and]
  apply and_congr_right
  intro _
  constructor
  · intro hsame d hd hid
    exact (nameOf_restored h hdests hd).1 (hsame _ hid)
  · intro hkept did hid
    obtain ⟨d, hd, rfl⟩ := h.targets r hr did hid
    exact (nameOf_restored h hdests hd).2 (hkept d hd hid)

theorem Exportable.accepted (h : Exportable user db) {result : ImportResult}
    (hrun : importConfig env user target (restoreRequest env user db) = (.ok result, restored)) :
    ∀ r ∈ ownRoutes user db, validateRouteRead env.rt (routeRowToRead r) = none := by
  intro r hr
  have hscope := importScope_restore env user db
  cases hfirst : (restoreRequest env user db).bundle.routes.findSome?
      (validateRouteRead env.rt) with
  | some e =>
    rw [hfirst] at hscope
    rw [importConfig_rejected hscope] at hrun
    cases hrun
  | none =>
    exact List.findSome?_eq_none_iff.1 hfirst _
      (List.mem_map_of_mem (h.exportedRoutes.symm.subset hr))

/-- The export can be imported back just where it is restorable. -/
theorem Exportable.restores_iff (h : Exportable user db) (hblank : Blank user target) :
    RestoresExport env user db target ↔ Restorable env user db := by
  constructor
  · rintro ⟨result, restored, hrun, hdestinations, hroutes⟩
    have haccepted := h.accepted hrun
    obtain ⟨result', restored', hrun', hdests, hsettings⟩ := h.restored hblank haccepted
    obtain rfl : restored' = restored := congrArg Prod.snd (hrun'.symm.trans hrun)
    have hkept := (h.routes_iff hdests hsettings).1 hroutes
    exact ⟨haccepted, fun r hr => (hkept r hr).1, (h.destinations_iff hdests).1 hdestinations,
      fun r hr => (hkept r hr).2⟩
  · intro hr
    obtain ⟨result, restored, hrun, hdests, hsettings⟩ := h.restored hblank hr.accepted
    exact ⟨result, restored, hrun, (h.destinations_iff hdests).2 hr.plain,
      (h.routes_iff hdests hsettings).2 fun r hroute =>
        ⟨hr.redacted r hroute, hr.kept r hroute⟩⟩

end Restored

end CentralOps
