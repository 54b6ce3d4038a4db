import CentralOps.Config.Entries

namespace CentralOps
set_option autoImplicit true

namespace ImportScope
variable {env : ConfigEnv} {c : ImportScope} {db s : ConfigDb} {e : BundleEntry}

theorem settled_not_refused (h : c.Settled db e) : ¬ c.Refused db e := by
  rintro ⟨hnone, -⟩
  have hsome := h.1
  rw [hnone] at hsome
  cases hsome

def trail (db : ConfigDb) : Nat := db.destinationAudit.length + db.routeAudit.length

theorem DestinationsWritten.trail_lt (h : DestinationsWritten db s) : trail db < trail s := by
  rw [trail, trail, h.audited, h.routeAudit]
  omega

theorem RouteWritten.trail_lt {id : String} (h : RouteWritten id db s) : trail db < trail s := by
  obtain ⟨entry, -, haudit⟩ := h.audited
  rw [trail, trail, haudit, h.destinationAudit, List.length_append, List.length_singleton]
  omega

/-- An entry writes nothing just where it is settled. -/
theorem Taken.settled_or (h : Taken env c db e s) :
    c.Settled db e ∧ s = db ∨ ¬ c.Settled db e ∧ trail db < trail s := by
  cases h with
  | unchanged hsettled => exact .inl ⟨hsettled, rfl⟩
  | createdDestination hfind _ _ _ _ _ hwritten =>
    refine .inr ⟨?_, DestinationsWritten.trail_lt hwritten⟩
    rintro ⟨hsome, -⟩
    rw [finds, hfind] at hsome
    cases hsome
  | updatedDestination hfind hdiffers _ hwritten =>
    refine .inr ⟨?_, DestinationsWritten.trail_lt hwritten⟩
    rintro ⟨-, hsame⟩
    rw [differs, hfind, Option.any_some, hdiffers] at hsame
    cases hsame
  | createdRoute hfind _ _ hwritten =>
    refine .inr ⟨?_, RouteWritten.trail_lt hwritten⟩
    rintro ⟨hsome, -⟩
    rw [finds, hfind] at hsome
    cases hsome
  | @updatedRoute x r hfind hdiffers =>
    refine .inr ⟨?_, RouteWritten.trail_lt (RouteRepository.write_written env r _ _ _)⟩
    rintro ⟨-, hsame⟩
    rw [differs, hfind, Option.any_some, hdiffers] at hsame
    cases hsame

theorem commits (env : ConfigEnv) (happly : c.dryRun = false) :
    Batch.Commits (c.importEntry env) c.Refused c.Settled trail where
  refuses _ _ := importEntry_refused happly
  stays s e o s' hstep hsettled := by
    obtain ⟨-, hsame⟩ | ⟨hnot, -⟩ := (importEntry_taken happly hstep).2.settled_or
    · exact hsame
    · exact absurd hsettled hnot
  grows s e o s' hstep hnot := by
    obtain ⟨hsettled, -⟩ | ⟨-, hgrows⟩ := (importEntry_taken happly hstep).2.settled_or
    · exact absurd hsettled hnot
    · exact hgrows
  apart _ _ := settled_not_refused

/-- The name of an entry stands for the row for which it stood at the start, or for none as before,
and the entry differs from that row as before. -/
def SeenAs (start : ConfigDb) (c : ImportScope) (db : ConfigDb) (e : BundleEntry) : Prop :=
  c.finds db e = c.finds start e ∧ c.differs db e = c.differs start e

theorem differs_of_finds (h : c.finds db e = none) : c.differs db e = false := by
  cases e with
  | destination d => rw [differs, Option.map_eq_none_iff.1 h, Option.any_none]
  | route x => rw [differs, Option.map_eq_none_iff.1 h, Option.any_none]

theorem announce_eq_iff : c.announce s e = c.announce db e ↔ c.SeenAs db s e := by
  constructor
  · intro h
    have hfinds : c.finds s e = c.finds db e := congrArg ConfigDiff.id h
    refine ⟨hfinds, ?_⟩
    cases hrow : c.finds db e with
    | none => rw [differs_of_finds hrow, differs_of_finds (hfinds.trans hrow)]
    | some id =>
      have hstatus := congrArg ConfigDiff.status h
      rw [announce, announce, hfinds, hrow] at hstatus
      simp only [Option.isNone_some, Bool.false_eq_true, if_false] at hstatus
      cases hnow : c.differs s e with
      | true =>
        cases hthen : c.differs db e with
        | true => rfl
        | false =>
          rw [hnow, hthen] at hstatus
          exact absurd hstatus (by decide)
      | false =>
        cases hthen : c.differs db e with
        | true =>
          rw [hnow, hthen] at hstatus
          exact absurd hstatus (by decide)
        | false => rfl
  · rintro ⟨hfinds, hdiffers⟩
    rw [announce, announce, hfinds, hdiffers]

end ImportScope

def ImportRequest.inMode (req : ImportRequest) (dryRun : Bool) : ImportRequest :=
  { req with dryRun := dryRun }

/-- An import that raises has changed nothing, and a dry run reports what an import does. -/
structure ImportFaithful (env : ConfigEnv) (user : AppUser) (db : ConfigDb) (req : ImportRequest) :
    Prop where
  atomic : ∀ e, (importConfig env user db (req.inMode false)).1 = .error e →
    (importConfig env user db (req.inMode false)).2 = db
  truthful : ∀ announced applied,
    (importConfig env user db (req.inMode true)).1 = .ok announced →
    (importConfig env user db (req.inMode false)).1 = .ok applied →
    announced.destinations = applied.destinations ∧ announced.routes = applied.routes

/-- The import is rejected before its entries; or the first entry that would write is refused; or
no entry is refused at its turn, and each is seen as at the start. -/
def ImportClean (env : ConfigEnv) (user : AppUser) (db : ConfigDb) (req : ImportRequest) : Prop :=
  ∀ c, importScope env user (req.inMode false) = .ok c →
    RefusedFirst (c.Refused db) (c.Settled db) req.bundle.entries ∨
    AtTurns (c.importEntry env) (fun s e => ¬ c.Refused s e) req.bundle.entries db ∧
      AtTurns (c.importEntry env) (c.SeenAs db) req.bundle.entries db

section Modes
variable {env : ConfigEnv} {user : AppUser} {db : ConfigDb} {req : ImportRequest}
  {c : ImportScope}

theorem importScope_mode (dryRun : Bool) (h : importScope env user (req.inMode false) = .ok c) :
    c.dryRun = false ∧
      importScope env user (req.inMode dryRun) = .ok { c with dryRun := dryRun } := by
  rw [importScope] at h ⊢
  cases herror : (validateBundleOrgScope req.bundle.organizationId (resolveScope user).1
      (resolveScope user).2).or (req.bundle.routes.findSome? (validateRouteRead env.rt)) with
  | some e =>
    simp only [ImportRequest.inMode, herror] at h
    cases h
  | none =>
    simp only [ImportRequest.inMode, herror] at h ⊢
    cases hsecrets : encryptSecrets env req.secrets with
    | error e =>
      rw [hsecrets] at h
      cases h
    | ok secrets =>
      rw [hsecrets] at h
      cases h
      exact ⟨rfl, rfl⟩

theorem importConfig_dry (h : importScope env user (req.inMode false) = .ok c)
    {announced : ImportResult} :
    (importConfig env user db (req.inMode true)).1 = .ok announced ↔
      (req.inMode true).result (req.bundle.entries.map (c.announce db)) = announced := by
  have hstill : runBatch (ImportScope.importEntry env { c with dryRun := true })
      (req.inMode true).bundle.entries db = (.ok (req.bundle.entries.map (c.announce db)), db) :=
    Batch.still fun e _ => ImportScope.importEntry_dry rfl e
  rw [importConfig_ok_iff (importScope_mode true h).2, hstill]
  constructor
  · rintro ⟨_, hdiffs, hresult⟩
    cases hdiffs
    exact hresult
  · intro hresult
    exact ⟨_, rfl, hresult⟩

theorem importConfig_atomic_iff (db : ConfigDb)
    (h : importScope env user (req.inMode false) = .ok c) :
    (∀ e, (importConfig env user db (req.inMode false)).1 = .error e →
      (importConfig env user db (req.inMode false)).2 = db) ↔
    AtTurns (c.importEntry env) (fun s e => ¬ c.Refused s e) req.bundle.entries db ∨
      RefusedFirst (c.Refused db) (c.Settled db) req.bundle.entries := by
  rw [← exists_imp, importConfig_fails_iff h, importConfig_db h]
  exact (ImportScope.commits env (importScope_mode false h).1).atomic_iff

theorem result_parts_iff {r : ImportRequest} {dry applied : List ConfigDiff} :
    ((r.inMode true).result dry).destinations = ((r.inMode false).result applied).destinations ∧
      ((r.inMode true).result dry).routes = ((r.inMode false).result applied).routes ↔
    applied = dry := by
  constructor
  · rintro ⟨hdestinations, hroutes⟩
    have hparts := congrArg₂ (· ++ ·) hdestinations hroutes
    exact ((List.take_append_drop _ applied).symm.trans hparts.symm).trans
      (List.take_append_drop _ dry)
  · rintro rfl
    exact ⟨rfl, rfl⟩

/-- An import that succeeds was announced as it is just where every entry is seen as at the
start. -/
theorem importConfig_truthful_iff (db : ConfigDb)
    (h : importScope env user (req.inMode false) = .ok c) :
    (∀ announced applied, (importConfig env user db (req.inMode true)).1 = .ok announced →
      (importConfig env user db (req.inMode false)).1 = .ok applied →
      announced.destinations = applied.destinations ∧ announced.routes = applied.routes) ↔
    (AtTurns (c.importEntry env) (fun s e => ¬ c.Refused s e) req.bundle.entries db →
      AtTurns (c.importEntry env) (c.SeenAs db) req.bundle.entries db) := by
  have happly := (importScope_mode false h).1
  have hseen : ∀ {diffs}, (runBatch (c.importEntry env) req.bundle.entries db).1 = .ok diffs →
      (diffs = req.bundle.entries.map (c.announce db) ↔
        AtTurns (c.importEntry env) (c.SeenAs db) req.bundle.entries db) := by
    intro diffs hdiffs
    rw [Batch.reports_iff (fun s e o s' hstep => (ImportScope.importEntry_taken happly hstep).1)
      hdiffs]
    simp only [ImportScope.announce_eq_iff]
  have hfails : (∃ x, (runBatch (c.importEntry env) req.bundle.entries db).1 = .error x) ↔
      ¬ AtTurns (c.importEntry env) (fun s e => ¬ c.Refused s e) req.bundle.entries db :=
    (ImportScope.commits env happly).fails_iff
  cases hbatch : (runBatch (c.importEntry env) req.bundle.entries db).1 with
  | error x =>
    have hrefused := hfails.1 ⟨x, hbatch⟩
    constructor
    · intro _ haccepted
      exact absurd haccepted hrefused
    · intro _ announced applied _ happlied
      obtain ⟨diffs, hdiffs, -⟩ := (importConfig_ok_iff h).1 happlied
      rw [ImportRequest.inMode] at hdiffs
      rw [hbatch] at hdiffs
      cases hdiffs
  | ok diffs =>
    have haccepted : AtTurns (c.importEntry env) (fun s e => ¬ c.Refused s e)
        req.bundle.entries db := by
      by_contra hrefused
      obtain ⟨x, hx⟩ := hfails.2 hrefused
      rw [hbatch] at hx
      cases hx
    rw [← hseen hbatch]
    constructor
    · intro htruthful _
      exact result_parts_iff.1 (htruthful _ _ ((importConfig_dry h).2 rfl)
        ((importConfig_ok_iff h).2 ⟨diffs, hbatch, rfl⟩))
    · intro hsame announced applied hannounced happlied
      obtain rfl := (importConfig_dry h).1 hannounced
      obtain ⟨diffs', hdiffs, rfl⟩ := (importConfig_ok_iff h).1 happlied
      have heq : diffs' = diffs := Except.ok.inj (hdiffs.symm.trans hbatch)
      exact result_parts_iff.2 (heq.trans (hsame haccepted))

end Modes

section Example

/-- A library that answers with constants, and a vault that keeps what it is given. -/
def plainEnv : ConfigEnv where
  rt := .ascii
  dumps _ := ""
  ids := longerIds
  now := 0
  encrypt s := .ok s

/-- The administrator of an organization. -/
def orgAdmin (org : Int) : AppUser := ⟨"ana", "admin", some org, false⟩

def syslogRow (name : String) (org : Option Int) : Destination where
  name := name
  kind := "syslog_rfc3164"
  config := []
  delivery := []
  secretRef := none
  configVersion := ""
  organizationId := org
  enabled := true
  dataResidency := none
  updatedAt := 0

def syslogEntry (name : String) : DestinationRead :=
  destRowToRead ⟨"old-" ++ name, syslogRow name none, false⟩

/-- The name `b` belongs to the organization 2. -/
def twoTenants : ConfigDb where
  organizations := [1, 2]
  destinations := [⟨"x", syslogRow "b" (some 2), false⟩]
  destinationKeys := List.nodup_singleton _
  destinationNames := List.nodup_singleton _

def importOf (names : List String) : ImportRequest where
  bundle := { exportedAt := 0, destinations := names.map syslogEntry }

end Example

end CentralOps
