import CentralOps.Config.Restore

namespace CentralOps
set_option autoImplicit true

/-- The table that an entry is for, and its name there. -/
def BundleEntry.place : BundleEntry → Bool × String
  | .destination d => (true, d.name)
  | .route x => (false, x.name)

namespace ImportScope
variable (env : ConfigEnv) (c : ImportScope) (db : ConfigDb)

def seesDestination (r : DestinationRecord) : Bool :=
  visibleTo c.effectiveOrg c.isGlobal r.row.organizationId

def seesRoute (r : RouteRecord) : Bool := visibleTo c.effectiveOrg c.isGlobal r.organizationId

def NamesDestination (n : String) (o : Option DestinationRecord) : Prop :=
  KeyedRows.Named (fun r : DestinationRecord => r.row.name) c.seesDestination db.destinations n o

def NamesRoute (n : String) (o : Option RouteRecord) : Prop :=
  KeyedRows.Named (fun r : RouteRecord => r.name) c.seesRoute db.routes n o

/-- What is stored of an entry equals it: there is no NaN in it, and its redaction says something;
and no secret comes with it. -/
def Lasting : BundleEntry → Prop
  | .destination d => (Json.obj (sortObj d.config)).pyEq (.obj d.config) = true ∧
    (Json.obj (sortObj d.delivery)).pyEq (.obj d.delivery) = true ∧ c.secrets.lookup d.name = none
  | .route x => (Json.obj (sortObj x.settings.condition)).pyEq (.obj x.settings.condition) = true ∧
    (storedRedaction x.settings.piiRedaction).pyEq x.settings.piiRedaction = true

def Writable : BundleEntry → Prop
  | .destination d => ∃ o, c.NamesDestination db d.name o ∧ ∀ r ∈ o, r.row.kind = d.kind
  | .route x => ∃ o, c.NamesRoute db x.name o

def InForce : BundleEntry → Prop
  | .destination d => ∃ r, c.NamesDestination db d.name (some r) ∧ c.destinationDiffers r d = false
  | .route x => ∃ r, c.NamesRoute db x.name (some r) ∧
    routeDiffers r.settings x.settings x.settings.destinationIds = false

def Room (es : List BundleEntry) : Prop :=
  db.destinations.countP c.seesDestination + es.countP (fun e => e.place.1) ≤ 1000 ∧
    db.routes.countP c.seesRoute + es.countP (fun e => !e.place.1) ≤ 1000

/-- An import after which the same one has nothing to do. -/
structure Settling (es : List BundleEntry) : Prop where
  places : (es.map (·.place)).Nodup
  lasting : ∀ e ∈ es, c.Lasting e
  writable : ∀ e ∈ es, c.Writable db e
  room : c.Room db es

variable {env c db} {s : ConfigDb} {e e' : BundleEntry} {es : List BundleEntry}

theorem findDestination_eq {n : String} {o : Option DestinationRecord}
    (h : c.NamesDestination db n o) (hroom : c.Room db es) : c.findDestination db n = o := by
  have hlength : (db.destinations.filter c.seesDestination).length ≤ 1000 := by
    rw [← List.countP_eq_length_filter]
    exact (Nat.le_add_right _ _).trans hroom.1
  apply h.find?_eq
  intro r
  rw [(DestinationRepository.list_perm hlength).mem_iff]
  exact List.mem_filter

theorem findRoute_eq {n : String} {o : Option RouteRecord} (h : c.NamesRoute db n o)
    (hroom : c.Room db es) : c.findRoute db n = o := by
  have hlength : (db.routes.filter c.seesRoute).length ≤ 1000 := by
    rw [← List.countP_eq_length_filter]
    exact (Nat.le_add_right _ _).trans hroom.2
  apply h.find?_eq
  intro r
  rw [(RouteRepository.list_perm hlength).mem_iff]
  exact List.mem_filter

theorem visibleTo_self (org : Option Int) (globalScope : Bool) :
    visibleTo org globalScope org = true := by
  rw [visibleTo, decide_eq_true rfl, Bool.or_true]

theorem Taken.room (h : Taken env c db e s) (hroom : c.Room db (e :: es)) : c.Room s es := by
  obtain ⟨hdests, hroutes⟩ := hroom
  rw [List.countP_cons] at hdests hroutes
  cases h with
  | unchanged => exact ⟨by omega, by omega⟩
  | createdDestination _ _ _ _ _ hrows hwritten =>
    have hnew : db.destinations.countP c.seesDestination +
        (es.countP (fun e => e.place.1) + 1) ≤ 1000 := hdests
    rw [Room, hrows, hwritten.routes, List.countP_append, List.countP_singleton]
    exact ⟨by split <;> omega, by omega⟩
  | @updatedDestination d r _ _ _ hrows hwritten =>
    have hsame : (KeyedRows.modify (·.id) db.destinations r.id (DestinationRepository.changed env
        (c.destinationChanges d))).countP c.seesDestination =
          db.destinations.countP c.seesDestination := by
      apply KeyedRows.countP_modify
      intro _
      rfl
    rw [Room, hrows, hwritten.routes, hsame]
    exact ⟨by omega, by omega⟩
  | createdRoute _ _ hrows hwritten =>
    have hnew : db.routes.countP c.seesRoute +
        (es.countP (fun e => !e.place.1) + 1) ≤ 1000 := hroutes
    rw [Room, hrows, hwritten.destinations, List.countP_append, List.countP_singleton]
    exact ⟨by omega, by split <;> omega⟩
  | @updatedRoute x r =>
    have hsame : (KeyedRows.modify (·.id) db.routes r.id
        (·.update (.ofSettings x.settings))).countP c.seesRoute =
          db.routes.countP c.seesRoute := by
      apply KeyedRows.countP_modify
      intro _
      rfl
    refine ⟨?_, ?_⟩
    · change db.destinations.countP c.seesDestination + _ ≤ 1000
      omega
    · change (KeyedRows.modify (·.id) db.routes r.id
        (·.update (.ofSettings x.settings))).countP c.seesRoute + _ ≤ 1000
      omega

theorem Taken.namesDestination (h : Taken env c db e s) {n : String}
    {o : Option DestinationRecord} (hnames : c.NamesDestination db n o)
    (hother : e.place ≠ (true, n)) : c.NamesDestination s n o := by
  cases h with
  | unchanged => exact hnames
  | createdDestination _ _ hrow _ _ hrows =>
    rw [NamesDestination, hrows]
    apply hnames.append_other
    rw [hrow]
    exact fun hname => hother (congrArg (Prod.mk true) hname)
  | @updatedDestination _ r _ hfind _ hrows =>
    obtain ⟨hmem, hname, -⟩ := findDestination_mem hfind
    have hne : r.row.name ≠ n := fun hn => hother (congrArg (Prod.mk true) (hname.symm.trans hn))
    rw [NamesDestination, hrows]
    exact hnames.modify_other db.destinationKeys hmem hne hne
  | createdRoute _ _ _ hwritten =>
    rw [NamesDestination, hwritten.destinations]
    exact hnames
  | updatedRoute => exact hnames

theorem Taken.namesRoute (h : Taken env c db e s) {n : String} {o : Option RouteRecord}
    (hnames : c.NamesRoute db n o) (hother : e.place ≠ (false, n)) : c.NamesRoute s n o := by
  cases h with
  | unchanged => exact hnames
  | createdDestination _ _ _ _ _ _ hwritten =>
    rw [NamesRoute, hwritten.routes]
    exact hnames
  | updatedDestination _ _ _ hwritten =>
    rw [NamesRoute, hwritten.routes]
    exact hnames
  | createdRoute _ hr hrows =>
    rw [NamesRoute, hrows]
    apply hnames.append_other
    rw [hr]
    exact fun hname => hother (congrArg (Prod.mk false) hname)
  | @updatedRoute _ r hfind =>
    obtain ⟨hmem, hname, -⟩ := findRoute_mem hfind
    have hne : r.name ≠ n := fun hn => hother (congrArg (Prod.mk false) (hname.symm.trans hn))
    exact KeyedRows.Named.modify_other db.routeKeys hnames hmem hne hne

theorem Taken.writable_other (h : Taken env c db e s) (hother : e.place ≠ e'.place)
    (hw : c.Writable db e') : c.Writable s e' := by
  cases e' with
  | destination d =>
    obtain ⟨o, hnames, hkind⟩ := hw
    exact ⟨o, h.namesDestination hnames hother, hkind⟩
  | route x =>
    obtain ⟨o, hnames⟩ := hw
    exact ⟨o, h.namesRoute hnames hother⟩

theorem Taken.inForce_other (h : Taken env c db e s) (hother : e.place ≠ e'.place)
    (hf : c.InForce db e') : c.InForce s e' := by
  cases e' with
  | destination d =>
    obtain ⟨r, hnames, hdiffers⟩ := hf
    exact ⟨r, h.namesDestination hnames hother, hdiffers⟩
  | route x =>
    obtain ⟨r, hnames, hdiffers⟩ := hf
    exact ⟨r, h.namesRoute hnames hother, hdiffers⟩

theorem InForce.settled (h : c.InForce db e) (hroom : c.Room db es) : c.Settled db e := by
  cases e with
  | destination d =>
    obtain ⟨r, hnames, hdiffers⟩ := h
    have hfind := findDestination_eq hnames hroom
    constructor
    · rw [finds, hfind]
      rfl
    · rw [differs, hfind]
      exact hdiffers
  | route x =>
    obtain ⟨r, hnames, hdiffers⟩ := h
    have hfind := findRoute_eq hnames hroom
    constructor
    · rw [finds, hfind]
      rfl
    · rw [differs, hfind]
      exact hdiffers

theorem Settled.inForce (h : c.Settled db e) (hroom : c.Room db es) (hw : c.Writable db e) :
    c.InForce db e := by
  obtain ⟨hfinds, hdiffers⟩ := h
  cases e with
  | destination d =>
    obtain ⟨o, hnames, -⟩ := hw
    rw [finds, findDestination_eq hnames hroom] at hfinds
    rw [differs, findDestination_eq hnames hroom] at hdiffers
    cases o with
    | none => cases hfinds
    | some r => exact ⟨r, hnames, hdiffers⟩
  | route x =>
    obtain ⟨o, hnames⟩ := hw
    rw [finds, findRoute_eq hnames hroom] at hfinds
    rw [differs, findRoute_eq hnames hroom] at hdiffers
    cases o with
    | none => cases hfinds
    | some r => exact ⟨r, hnames, hdiffers⟩

theorem stored_not_differs {x : RouteRead} (h : c.Lasting (.route x)) :
    routeDiffers x.settings.stored x.settings x.settings.destinationIds = false := by
  rw [routeDiffers, RouteSettings.stored]
  simp only [h.1, h.2, ne_eq, not_true, decide_false, Bool.not_true, Bool.or_self]

/-- An entry is in force once it has been taken. -/
theorem Taken.inForce (h : Taken env c db e s) (hroom : c.Room db es) (hw : c.Writable db e)
    (hlasting : c.Lasting e) : c.InForce s e := by
  cases h with
  | unchanged hsettled => exact Settled.inForce hsettled hroom hw
  | @createdDestination d r _ hfind _ hrow _ _ hrows =>
    obtain ⟨o, hnames, -⟩ := hw
    obtain rfl : o = none := (findDestination_eq hnames hroom).symm.trans hfind
    refine ⟨r, ?_, ?_⟩
    · rw [NamesDestination, hrows]
      apply hnames.append_new
      · rw [seesDestination, hrow]
        exact visibleTo_self _ _
      · rw [hrow]
        rfl
    · rw [destinationDiffers, hrow]
      simp only [Destination.add, newDestination, Option.getD_some, hlasting.1, hlasting.2.1,
        hlasting.2.2, ne_eq, not_true, decide_false, Bool.not_true, Bool.or_self,
        Option.isSome_none]
  | @updatedDestination d r _ hfind _ hrows =>
    obtain ⟨o, hnames, hkind⟩ := hw
    obtain rfl : o = some r := (findDestination_eq hnames hroom).symm.trans hfind
    obtain ⟨-, hname, hseen⟩ := findDestination_mem hfind
    refine ⟨DestinationRepository.changed env (c.destinationChanges d) r, ?_, ?_⟩
    · rw [NamesDestination, hrows]
      exact hnames.modify_same db.destinationKeys hseen hname
    · have hsame : r.row.kind = d.kind := hkind r rfl
      rw [destinationDiffers, DestinationRepository.changed]
      simp only [Destination.update, destinationChanges, Option.getD_some, Option.map_some, hsame,
        hlasting.1, hlasting.2.1, hlasting.2.2, ne_eq, not_true, decide_false, Bool.not_true,
        Bool.or_self, Option.isSome_none]
  | @createdRoute x r _ hfind hr hrows =>
    obtain ⟨o, hnames⟩ := hw
    obtain rfl : o = none := (findRoute_eq hnames hroom).symm.trans hfind
    refine ⟨r, ?_, ?_⟩
    · rw [NamesRoute, hrows]
      apply hnames.append_new
      · rw [seesRoute, hr]
        exact visibleTo_self _ _
      · rw [hr]
    · rw [hr]
      exact stored_not_differs hlasting
  | @updatedRoute x r hfind =>
    obtain ⟨o, hnames⟩ := hw
    obtain rfl : o = some r := (findRoute_eq hnames hroom).symm.trans hfind
    obtain ⟨-, hname, hseen⟩ := findRoute_mem hfind
    refine ⟨r.update (.ofSettings x.settings),
      KeyedRows.Named.modify_same db.routeKeys hnames hseen hname, ?_⟩
    rw [RouteRecord.update, update_ofSettings]
    exact stored_not_differs hlasting

theorem Settling.run (happly : c.dryRun = false) {diffs : List ConfigDiff}
    (h : c.Settling db es) (hrun : runBatch (c.importEntry env) es db = (.ok diffs, s)) :
    (∀ e ∈ es, c.InForce s e) ∧ c.Room s [] ∧
      ∀ e, e.place ∉ es.map (·.place) → c.InForce db e → c.InForce s e := by
  induction es generalizing db diffs with
  | nil =>
    cases hrun
    exact ⟨List.forall_mem_nil _, h.room, fun _ _ hforce => hforce⟩
  | cons e es ih =>
    obtain ⟨hfresh, hplaces⟩ := List.nodup_cons.1 h.places
    change e.place ∉ es.map (·.place) at hfresh
    obtain ⟨hlasting, hlastings⟩ := List.forall_mem_cons.1 h.lasting
    obtain ⟨hwritable, hwritables⟩ := List.forall_mem_cons.1 h.writable
    cases hstep : c.importEntry env db e with
    | error x =>
      rw [Batch.error_cons hstep] at hrun
      cases hrun
    | ok next =>
      obtain ⟨o, t⟩ := next
      have htaken := (importEntry_taken happly hstep).2
      have hapart : ∀ e' ∈ es, e.place ≠ e'.place := by
        intro e' he' hsame
        rw [hsame] at hfresh
        exact hfresh (List.mem_map_of_mem he')
      have hnext : c.Settling t es :=
        { places := hplaces
          lasting := hlastings
          writable := fun e' he' => htaken.writable_other (hapart e' he') (hwritables e' he')
          room := htaken.room h.room }
      rw [Batch.ok_cons hstep] at hrun
      cases hrest : runBatch (c.importEntry env) es t with
      | mk result last =>
        rw [hrest] at hrun
        cases result with
        | error x => cases hrun
        | ok rest =>
          obtain rfl : last = s := congrArg Prod.snd hrun
          obtain ⟨hforce, hroom, hkeep⟩ := ih hnext hrest
          refine ⟨?_, hroom, ?_⟩
          · rw [List.forall_mem_cons]
            exact ⟨hkeep e hfresh (htaken.inForce h.room hwritable hlasting), hforce⟩
          · intro e' he' hbefore
            rw [List.map_cons, List.mem_cons, not_or] at he'
            exact hkeep e' he'.2 (htaken.inForce_other (Ne.symm he'.1) hbefore)

theorem import_settled (happly : c.dryRun = false) (h : ∀ e ∈ es, c.Settled s e) :
    runBatch (c.importEntry env) es s = (.ok (es.map (c.announce s)), s) := by
  apply Batch.still
  intro e he
  obtain ⟨hrefused, -⟩ | ⟨-, t, hstep, htaken⟩ := importEntry_cases env s happly e
  · exact absurd hrefused (settled_not_refused (h e he))
  · obtain ⟨-, rfl⟩ | ⟨hnot, -⟩ := htaken.settled_or
    · exact hstep
    · exact absurd (h e he) hnot

theorem Settled.announced (h : c.Settled db e) : (c.announce db e).status = "unchanged" := by
  obtain ⟨hfinds, hdiffers⟩ := h
  obtain ⟨id, hid⟩ := Option.isSome_iff_exists.1 hfinds
  rw [announce, hid, hdiffers]
  rfl

end ImportScope

/-- The same import again reports that nothing is to be done. -/
def Converges (env : ConfigEnv) (user : AppUser) (db : ConfigDb) (req : ImportRequest) : Prop :=
  ∀ result after, importConfig env user db (req.inMode false) = (.ok result, after) →
    ∃ again, (importConfig env user after (req.inMode false)).1 = .ok again ∧
      ∀ d ∈ again.destinations ++ again.routes, d.status = "unchanged"

/-- The import of a request settles, unless it is rejected before its entries. -/
def ImportSettles (env : ConfigEnv) (user : AppUser) (db : ConfigDb) (req : ImportRequest) : Prop :=
  ∀ c, importScope env user (req.inMode false) = .ok c → c.Settling db req.bundle.entries

/-- An export fits into a bundle, its routes have names of their own and are accepted, and its rows
equal themselves, for there is no NaN in them. -/
structure Reimportable (env : ConfigEnv) (user : AppUser) (db : ConfigDb) : Prop where
  destinations : (ownDestinations user db).length ≤ 1000
  routes : (ownRoutes user db).length ≤ 1000
  names : ((ownRoutes user db).map (·.name)).Nodup
  accepted : ∀ r ∈ ownRoutes user db, validateRouteRead env.rt (routeRowToRead r) = none
  destination_self : ∀ r ∈ ownDestinations user db,
    (Json.obj r.row.config).pyEq (.obj r.row.config) = true ∧
      (Json.obj r.row.delivery).pyEq (.obj r.row.delivery) = true
  route_self : ∀ r ∈ ownRoutes user db,
    (Json.obj r.settings.condition).pyEq (.obj r.settings.condition) = true ∧
      r.settings.piiRedaction.pyEq r.settings.piiRedaction = true

theorem Reimportable.settled (h : Reimportable env user db) :
    ∀ e ∈ (restoreRequest env user db).bundle.entries, (restoreScope user).Settled db e := by
  have hroom : (restoreScope user).Room db [] := by
    constructor
    · rw [List.countP_eq_length_filter]
      exact h.destinations
    · rw [List.countP_eq_length_filter]
      exact h.routes
  intro e he
  apply ImportScope.InForce.settled _ hroom
  rw [ConfigBundle.entries, List.mem_append] at he
  obtain he | he := he
  · obtain ⟨_, hd, rfl⟩ := List.mem_map.1 he
    rw [restoreRequest_destinations] at hd
    obtain ⟨r, hr, rfl⟩ := List.mem_map.1 hd
    have hown := (DestinationRepository.list_perm h.destinations).mem_iff.1 hr
    refine ⟨r, KeyedRows.Named.of_mem own_names hown, ?_⟩
    obtain ⟨hconfig, hdelivery⟩ := h.destination_self r hown
    simp [ImportScope.destinationDiffers, destRowToRead, restoreScope, hconfig, hdelivery]
  · obtain ⟨_, hx, rfl⟩ := List.mem_map.1 he
    rw [restoreRequest_routes] at hx
    obtain ⟨r, hr, rfl⟩ := List.mem_map.1 hx
    have hown := (RouteRepository.list_perm h.routes).mem_iff.1 hr
    refine ⟨r, KeyedRows.Named.of_mem h.names hown, ?_⟩
    obtain ⟨hcondition, hredaction⟩ := h.route_self r hown
    simp [ImportScope.routeDiffers, routeRowToRead, hcondition, hredaction]

/-- An export that is imported where it was made finds nothing to do. -/
theorem export_reimported (env : ConfigEnv) (user : AppUser) (db : ConfigDb)
    (h : Reimportable env user db) :
    ∃ result, importConfig env user db (restoreRequest env user db) = (.ok result, db) ∧
      ∀ d ∈ result.destinations ++ result.routes, d.status = "unchanged" := by
  have hscope : importScope env user (restoreRequest env user db) = .ok (restoreScope user) := by
    have haccepted : (restoreRequest env user db).bundle.routes.findSome?
        (validateRouteRead env.rt) = none := by
      rw [restoreRequest_routes, List.findSome?_eq_none_iff, List.forall_mem_map]
      intro r hr
      exact h.accepted r ((RouteRepository.list_perm h.routes).mem_iff.1 hr)
    rw [importScope_restore, haccepted]
  rw [importConfig_eq hscope, ImportScope.import_settled rfl h.settled]
  refine ⟨_, rfl, ?_⟩
  intro d hd
  rw [ImportRequest.result, List.take_append_drop] at hd
  obtain ⟨e, he, rfl⟩ := List.mem_map.1 hd
  exact (h.settled e he).announced

section Example

/-- A destination, with a residency or without, and a route that drops. -/
def officeDb (residency : Option String) : ConfigDb where
  organizations := [1]
  destinations := [⟨"x", { syslogRow "a" (some 1) with dataResidency := residency }, false⟩]
  routes := [⟨"r", "noise", { action := "drop" }, some 1⟩]
  destinationKeys := List.nodup_singleton _
  destinationNames := List.nodup_singleton _
  routeKeys := List.nodup_singleton _

def freshDb : ConfigDb where
  organizations := [1]

theorem freshDb_blank : Blank (orgAdmin 1) freshDb := ⟨rfl, rfl, rfl⟩

theorem export_reimported_office : ∃ result,
    importConfig plainEnv (orgAdmin 1) (officeDb (some "eu"))
        (restoreRequest plainEnv (orgAdmin 1) (officeDb (some "eu"))) =
      (.ok result, officeDb (some "eu")) ∧
    ∀ d ∈ result.destinations ++ result.routes, d.status = "unchanged" := by
  apply export_reimported
  have haccepted : ∀ r ∈ ownRoutes (orgAdmin 1) (officeDb (some "eu")),
      (validateRouteRead plainEnv.rt (routeRowToRead r)).isNone = true := by decide +kernel
  exact ⟨by decide, by decide, by decide, fun r hr => Option.isNone_iff_eq_none.1 (haccepted r hr),
    by decide, by decide⟩

/-- The destination of `officeDb` with another kind. -/
def otherKind : ImportRequest where
  bundle :=
    { exportedAt := 0
      destinations := [{ syslogEntry "a" with kind := "jsonl_file" }] }

end Example

end CentralOps
