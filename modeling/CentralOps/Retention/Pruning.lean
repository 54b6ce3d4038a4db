import Mathlib.Data.List.Basic

namespace CentralOps.Pruning
set_option autoImplicit true

structure Organization where
  id : Int
  isActive : Bool

structure Member where
  id : Int
  organizationId : Option Int

structure OrganizationRetentionConfig where
  organizationId : Int
  quarantineRetentionDays : Int := 7
  driftRetentionDays : Int := 90
  historyRetentionDays : Int := 30
  searchResultRetentionDays : Int := 7
  auditLogRetentionDays : Int := 365

/-- The columns of a configuration by their names; there are no others. -/
def OrganizationRetentionConfig.getattr (c : OrganizationRetentionConfig) : String → Option Int
  | "quarantine_retention_days" => some c.quarantineRetentionDays
  | "drift_retention_days" => some c.driftRetentionDays
  | "history_retention_days" => some c.historyRetentionDays
  | "search_result_retention_days" => some c.searchResultRetentionDays
  | "audit_log_retention_days" => some c.auditLogRetentionDays
  | _ => none

structure QuarantineEvent where
  id : String
  organizationId : Option Int
  integrationId : Option Int
  createdAt : Int
  deriving DecidableEq

structure UnknownField where
  id : String
  organizationId : Option Int
  lastSeen : Int
  deriving DecidableEq

structure DestinationDeadLetter where
  id : String
  organizationId : Option Int
  createdAt : Int
  deriving DecidableEq

/-- A row of `history` or `search_results`, of an integration, or of `audit_logs`, of a user. -/
structure Trace where
  id : Int
  memberId : Option Int
  instant : Int

structure RetentionDb where
  organizations : List Organization := []
  integrations : List Member := []
  users : List Member := []
  configs : List OrganizationRetentionConfig := []
  quarantineEvents : List QuarantineEvent := []
  unknownFields : List UnknownField := []
  deadLetters : List DestinationDeadLetter := []
  history : List Trace := []
  searchResults : List Trace := []
  auditLogs : List Trace := []

inductive OverflowError where
  | timedelta | datetime

/-- Microseconds. -/
def day : Int := 86400000000

/-- `utcnow() - timedelta(days=…)`, between the first and the last instant of a `datetime`. -/
def cutoff (now days : Int) : Except OverflowError Int :=
  if 999999999 < days.natAbs then .error .timedelta
  else if now - days * day < -62135596800000000 ∨ 253402300799999999 < now - days * day then
    .error .datetime
  else .ok (now - days * day)

section Prune
variable {ι ρ : Type} (owned : ι → ρ → Bool) (date : ρ → Int) (limit : ι → Except OverflowError Int)

def pruneEach : List ι → List ρ → Except OverflowError (List ρ)
  | [], rows => .ok rows
  | o :: owners, rows =>
    match limit o with
    | .error e => .error e
    | .ok t => pruneEach owners (rows.filter (fun r => !(owned o r && decide (date r < t))))

variable {owned date limit}

theorem mem_pruneEach {owners : List ι} {rows rows' : List ρ}
    (h : pruneEach owned date limit owners rows = .ok rows') (r : ρ) :
    r ∈ rows' ↔ r ∈ rows ∧ ∀ o ∈ owners, owned o r = true → ∀ t, limit o = .ok t → t ≤ date r := by
  induction owners generalizing rows with
  | nil =>
    cases h
    simp
  | cons o owners ih =>
    rw [pruneEach] at h
    cases hlimit : limit o with
    | error e =>
      rw [hlimit] at h
      cases h
    | ok t =>
      rw [hlimit] at h
      rw [ih h, List.mem_filter, List.forall_mem_cons, and_assoc, hlimit]
      simp only [Bool.not_eq_true', Bool.and_eq_false_iff, decide_eq_false_iff_not, Int.not_lt,
        Except.ok.injEq, forall_eq', and_congr_right_iff, and_congr_left_iff]
      intro _ _
      cases owned o r with
      | false => simp
      | true => simp

end Prune

section Tasks
variable (now : String → Option Int → Int) (db : RetentionDb)

def activeOrganizations : List Organization := db.organizations.filter (·.isActive)

/-- `_get_retention_days`. -/
def getRetentionDays (organizationId : Int) (field : String) (default : Int) : Int :=
  match db.configs.find? (fun c => decide (c.organizationId = organizationId)) with
  | none => default
  | some config => (config.getattr field).getD default

/-- `_integration_ids_for_org` and `_user_ids_for_org`. -/
def idsForOrg (members : List Member) (organizationId : Int) : List Int :=
  (members.filter (fun m => decide (m.organizationId = some organizationId))).map (·.id)

/-- `column.in_(ids)`; a null is in no list. -/
def isIn (ids : List Int) (column : Option Int) : Bool := column.any (ids.contains ·)

def orgCutoff (task field : String) (default : Int) (o : Organization) :
    Except OverflowError Int :=
  cutoff (now task (some o.id)) (getRetentionDays db o.id field default)

def pruneExpiredQuarantine : Except OverflowError RetentionDb := do
  let rows ← pruneEach (fun o e => isIn (idsForOrg db.integrations o.id) e.integrationId)
    QuarantineEvent.createdAt (orgCutoff now db "quarantine" "quarantine_retention_days" 7)
    (activeOrganizations db) db.quarantineEvents
  return { db with quarantineEvents := rows }

def pruneExpiredDrift : Except OverflowError RetentionDb := do
  let rows ← pruneEach (fun o f => decide (f.organizationId = some o.id))
    UnknownField.lastSeen (orgCutoff now db "drift" "drift_retention_days" 90)
    (activeOrganizations db) db.unknownFields
  return { db with unknownFields := rows }

def pruneExpiredHistory : Except OverflowError RetentionDb := do
  let rows ← pruneEach (fun o r => isIn (idsForOrg db.integrations o.id) r.memberId)
    Trace.instant (orgCutoff now db "history" "history_retention_days" 30)
    (activeOrganizations db) db.history
  return { db with history := rows }

def pruneExpiredSearchResults : Except OverflowError RetentionDb := do
  let rows ← pruneEach (fun o r => isIn (idsForOrg db.integrations o.id) r.memberId)
    Trace.instant (orgCutoff now db "search_results" "search_result_retention_days" 7)
    (activeOrganizations db) db.searchResults
  return { db with searchResults := rows }

def pruneExpiredAuditLogs : Except OverflowError RetentionDb := do
  let rows ← pruneEach (fun o r => isIn (idsForOrg db.users o.id) r.memberId)
    Trace.instant (orgCutoff now db "audit_logs" "audit_log_retention_days" 365)
    (activeOrganizations db) db.auditLogs
  return { db with auditLogs := rows }

def pruneExpiredDestinationDlq : Except OverflowError RetentionDb := do
  let rows ← pruneEach (fun o d => decide (d.organizationId = some o.id))
    DestinationDeadLetter.createdAt (orgCutoff now db "destination_dlq" "dlq_retention_days" 30)
    (activeOrganizations db) db.deadLetters
  let rows ← pruneEach (fun _ d => d.organizationId.isNone) DestinationDeadLetter.createdAt
    (fun _ => cutoff (now "destination_dlq" none) 30) [()] rows
  return { db with deadLetters := rows }

/-- A task that fails is noted, and what it wrote is rolled back. -/
def runTasks : List (String × (RetentionDb → Except OverflowError RetentionDb)) → RetentionDb →
    List (String × Option OverflowError) × RetentionDb
  | [], db => ([], db)
  | (name, task) :: tasks, db =>
    match task db with
    | .error e => ((name, some e) :: (runTasks tasks db).1, (runTasks tasks db).2)
    | .ok db => ((name, none) :: (runTasks tasks db).1, (runTasks tasks db).2)

def pruneAll : List (String × Option OverflowError) × RetentionDb :=
  runTasks [("quarantine", pruneExpiredQuarantine now), ("drift", pruneExpiredDrift now),
    ("history", pruneExpiredHistory now), ("search_results", pruneExpiredSearchResults now),
    ("audit_logs", pruneExpiredAuditLogs now),
    ("destination_dlq", pruneExpiredDestinationDlq now)] db

end Tasks

section Spec

/-- Rows after a pruning: of what is owned nothing is left that had expired when it began, and
nothing was deleted but what some owner's retention had let expire when it ended. -/
structure PrunedBy (owns : ι → ρ → Prop) (date : ρ → Int) (days : ι → Int) (start finish : Int)
    (rows rows' : List ρ) : Prop where
  within : ∀ r ∈ rows', r ∈ rows
  reaches : ∀ r ∈ rows', ∀ o, owns o r → start - days o * day ≤ date r
  spares : ∀ r ∈ rows, r ∉ rows' → ∃ o, owns o r ∧ date r < finish - days o * day

variable {ι κ ρ : Type} {owned : ι → ρ → Bool} {date : ρ → Int} {days : ι → Int} {clock : ι → Int}
  {start finish : Int} {rows mid rows' : List ρ}

theorem cutoff_ok {now n t : Int} (h : cutoff now n = .ok t) : t = now - n * day := by
  rw [cutoff] at h
  split at h
  · cases h
  split at h
  · cases h
  · cases h
    rfl

theorem limit_of_pruneEach {limit : ι → Except OverflowError Int} {owners : List ι}
    (h : pruneEach owned date limit owners rows = .ok rows') :
    ∀ o ∈ owners, ∃ t, limit o = .ok t := by
  induction owners generalizing rows with
  | nil => simp
  | cons o owners ih =>
    rw [pruneEach] at h
    cases hlimit : limit o with
    | error e =>
      rw [hlimit] at h
      cases h
    | ok t =>
      rw [hlimit] at h
      exact List.forall_mem_cons.2 ⟨⟨t, hlimit⟩, ih h⟩

theorem prunedBy_of_pruneEach {owners : List ι}
    (hclock : ∀ o, start ≤ clock o ∧ clock o ≤ finish)
    (h : pruneEach owned date (fun o => cutoff (clock o) (days o)) owners rows = .ok rows') :
    PrunedBy (fun o r => o ∈ owners ∧ owned o r = true) date days start finish rows rows' := by
  constructor
  · exact fun r hr => ((mem_pruneEach h r).1 hr).1
  · rintro r hr o ⟨ho, howned⟩
    obtain ⟨t, ht⟩ := limit_of_pruneEach h o ho
    have hkept := ((mem_pruneEach h r).1 hr).2 o ho howned t ht
    have hstart := (hclock o).1
    have hcut := cutoff_ok ht
    omega
  · intro r hr hdeleted
    by_contra hnone
    apply hdeleted
    apply (mem_pruneEach h r).2
    refine ⟨hr, fun o ho howned t ht => ?_⟩
    by_contra hbefore
    have hfinish := (hclock o).2
    have hcut := cutoff_ok ht
    exact hnone ⟨o, ⟨ho, howned⟩, by omega⟩

/-- A second pass, over what belongs to no owner of the first. -/
theorem PrunedBy.andThen {owns : ι → ρ → Prop} {owns' : κ → ρ → Prop} {days' : κ → Int}
    (h : PrunedBy owns date days start finish rows mid)
    (h' : PrunedBy owns' date days' start finish mid rows') :
    PrunedBy (fun o : ι ⊕ κ => o.elim owns owns') date (Sum.elim days days') start finish rows
      rows' := by
  constructor
  · exact fun r hr => h.within r (h'.within r hr)
  · intro r hr o ho
    cases o with
    | inl o => exact h.reaches r (h'.within r hr) o ho
    | inr o => exact h'.reaches r hr o ho
  · intro r hr hdeleted
    by_cases hmid : r ∈ mid
    · obtain ⟨o, ho, hdate⟩ := h'.spares r hmid hdeleted
      exact ⟨.inr o, ho, hdate⟩
    · obtain ⟨o, ho, hdate⟩ := h.spares r hr hmid
      exact ⟨.inl o, ho, hdate⟩

/-- What a run of all tasks makes of the rows of the active organizations, and of the dead letters
without one. -/
structure Pruned (start finish : Int) (db db' : RetentionDb) : Prop where
  quarantine : PrunedBy (fun o e => o ∈ activeOrganizations db ∧
      ∃ m ∈ db.integrations, m.organizationId = some o.id ∧ e.integrationId = some m.id)
    QuarantineEvent.createdAt (fun o => getRetentionDays db o.id "quarantine_retention_days" 7)
    start finish db.quarantineEvents db'.quarantineEvents
  drift : PrunedBy (fun o f => o ∈ activeOrganizations db ∧ f.organizationId = some o.id)
    UnknownField.lastSeen (fun o => getRetentionDays db o.id "drift_retention_days" 90)
    start finish db.unknownFields db'.unknownFields
  deadLetters : PrunedBy (fun (o : Option Organization) d => d.organizationId = o.map (·.id) ∧
      ∀ org, o = some org → org ∈ activeOrganizations db)
    DestinationDeadLetter.createdAt (fun _ => 30) start finish db.deadLetters db'.deadLetters

theorem runTasks_cons {name : String} {task : RetentionDb → Except OverflowError RetentionDb}
    {tasks : List (String × (RetentionDb → Except OverflowError RetentionDb))} {db : RetentionDb}
    (h : ∀ p ∈ (runTasks ((name, task) :: tasks) db).1, p.2 = none) :
    ∃ db', task db = .ok db' ∧ (runTasks ((name, task) :: tasks) db).2 = (runTasks tasks db').2 ∧
      ∀ p ∈ (runTasks tasks db').1, p.2 = none := by
  rw [runTasks] at h ⊢
  cases htask : task db with
  | error e =>
    rw [htask] at h
    have hfailed := h (name, some e) List.mem_cons_self
    cases hfailed
  | ok db' =>
    rw [htask] at h
    exact ⟨db', rfl, rfl, fun p hp => h p (List.mem_cons_of_mem _ hp)⟩

/-- A task that succeeds stores the rows that are left. -/
theorem ok_of_bind {e : Except OverflowError (List ρ)} {f : List ρ → RetentionDb} {db : RetentionDb}
    (h : (do let rows ← e; return f rows) = Except.ok db) : ∃ rows, e = .ok rows ∧ db = f rows := by
  cases e with
  | error x => cases h
  | ok rows =>
    cases h
    exact ⟨rows, rfl, rfl⟩

theorem of_bind_ok {e : Except OverflowError (List ρ)}
    {f : List ρ → Except OverflowError RetentionDb} {db : RetentionDb}
    (h : (do let rows ← e; f rows) = Except.ok db) : ∃ rows, e = .ok rows ∧ f rows = .ok db := by
  cases e with
  | error x => cases h
  | ok rows => exact ⟨rows, rfl, h⟩

theorem getRetentionDays_dlq (db : RetentionDb) (organizationId : Int) :
    getRetentionDays db organizationId "dlq_retention_days" 30 = 30 := by
  rw [getRetentionDays]
  cases db.configs.find? (fun c => decide (c.organizationId = organizationId)) with
  | none => rfl
  | some config => rfl

theorem isIn_idsForOrg {members : List Member} {organizationId : Int} {column : Option Int} :
    isIn (idsForOrg members organizationId) column = true ↔
      ∃ m ∈ members, m.organizationId = some organizationId ∧ column = some m.id := by
  rw [isIn, idsForOrg]
  cases column with
  | none => simp
  | some id => simp [and_assoc, eq_comm]

end Spec

section Claims
variable {now : String → Option Int → Int} {db : RetentionDb} {start finish : Int}

/-- Without a failure, the tasks reach every expired row of an active organization and of none,
and spare every row that has not expired. -/
theorem pruneAll_pruned (hnow : ∀ task org, start ≤ now task org ∧ now task org ≤ finish)
    (hok : ∀ p ∈ (pruneAll now db).1, p.2 = none) : Pruned start finish db (pruneAll now db).2 := by
  rw [pruneAll] at hok ⊢
  obtain ⟨db₁, h₁, hrun, hok⟩ := runTasks_cons hok
  rw [hrun]
  obtain ⟨db₂, h₂, hrun, hok⟩ := runTasks_cons hok
  rw [hrun]
  obtain ⟨db₃, h₃, hrun, hok⟩ := runTasks_cons hok
  rw [hrun]
  obtain ⟨db₄, h₄, hrun, hok⟩ := runTasks_cons hok
  rw [hrun]
  obtain ⟨db₅, h₅, hrun, hok⟩ := runTasks_cons hok
  rw [hrun]
  obtain ⟨db₆, h₆, hrun, -⟩ := runTasks_cons hok
  rw [hrun, runTasks]
  obtain ⟨quarantined, hquarantine, rfl⟩ := ok_of_bind h₁
  obtain ⟨fields, hdrift, rfl⟩ := ok_of_bind h₂
  obtain ⟨_, -, rfl⟩ := ok_of_bind h₃
  obtain ⟨_, -, rfl⟩ := ok_of_bind h₄
  obtain ⟨_, -, rfl⟩ := ok_of_bind h₅
  obtain ⟨mid, hlater, hsecond⟩ := of_bind_ok h₆
  obtain ⟨left, hglobal, rfl⟩ := ok_of_bind hsecond
  constructor
  · have h := prunedBy_of_pruneEach (fun o : Organization => hnow "quarantine" (some o.id))
      hquarantine
    simpa only [isIn_idsForOrg] using h
  · have h := prunedBy_of_pruneEach (fun o : Organization => hnow "drift" (some o.id)) hdrift
    simp only [decide_eq_true_eq] at h
    exact h
  · have hfirst := prunedBy_of_pruneEach
      (fun o : Organization => hnow "destination_dlq" (some o.id)) hlater
    have hsecond : PrunedBy _ DestinationDeadLetter.createdAt (fun _ : Unit => 30) start finish mid
        left := prunedBy_of_pruneEach (fun _ => hnow "destination_dlq" none) hglobal
    have h := hfirst.andThen hsecond
    constructor
    · exact h.within
    · rintro r hr o ⟨howned, hactive⟩
      cases o with
      | none => exact h.reaches r hr (.inr ()) ⟨List.mem_singleton.2 rfl, by simp [howned]⟩
      | some o =>
        have hreached := h.reaches r hr (.inl o) ⟨hactive o rfl, decide_eq_true howned⟩
        rw [Sum.elim_inl, getRetentionDays_dlq] at hreached
        exact hreached
    · intro r hr hdeleted
      obtain ⟨o, ho, hdate⟩ := h.spares r hr hdeleted
      cases o with
      | inl o =>
        refine ⟨some o, ⟨of_decide_eq_true ho.2, ?_⟩, ?_⟩
        · rintro _ ⟨⟩
          exact ho.1
        · rw [Sum.elim_inl, getRetentionDays_dlq] at hdate
          exact hdate
      | inr o => exact ⟨none, ⟨by simpa using ho.2, by simp⟩, hdate⟩

section Example

/-- The first instant of the year 2026. -/
def newYear : Int := 1767225600000000

/-- An organization with an expired and a fresh row of each kind, and dead letters without one. -/
def expiring : RetentionDb where
  organizations := [⟨1, true⟩]
  integrations := [⟨10, some 1⟩]
  configs := [{ organizationId := 1, driftRetentionDays := 1 }]
  quarantineEvents := [⟨"a", some 1, some 10, newYear - 8 * day⟩, ⟨"b", some 1, some 10, newYear⟩]
  unknownFields := [⟨"c", some 1, newYear - 2 * day⟩, ⟨"d", some 1, newYear⟩]
  deadLetters := [⟨"e", none, newYear - 31 * day⟩, ⟨"f", some 1, newYear - 29 * day⟩]

theorem expiring_pruned : (pruneAll (fun _ _ => newYear) expiring).2.deadLetters.map (·.id) =
    ["f"] ∧ Pruned newYear newYear expiring (pruneAll (fun _ _ => newYear) expiring).2 := by
  have hok : (pruneAll (fun _ _ => newYear) expiring).1.map (·.2.isNone) =
      [true, true, true, true, true, true] := by decide +kernel
  refine ⟨by decide +kernel, pruneAll_pruned (fun _ _ => ⟨Int.le_refl _, Int.le_refl _⟩) ?_⟩
  intro p hp
  have hnone : p.2.isNone ∈ [true, true, true, true, true, true] := by
    rw [← hok]
    exact List.mem_map_of_mem hp
  simpa using hnone

/-- A deactivated organization with a row that is a thousand days old. -/
def dormant : RetentionDb where
  organizations := [⟨1, false⟩]
  unknownFields := [⟨"c", some 1, newYear - 1000 * day⟩]

/-- It is never pruned. -/
theorem dormant_not_reached :
    (∀ p ∈ (pruneAll (fun _ _ => newYear) dormant).1, p.2.isNone = true) ∧
      ∃ f ∈ (pruneAll (fun _ _ => newYear) dormant).2.unknownFields, f.organizationId = some 1 ∧
        f.lastSeen < newYear - getRetentionDays dormant 1 "drift_retention_days" 90 * day := by
  decide +kernel

end Example

end Claims

end CentralOps.Pruning
