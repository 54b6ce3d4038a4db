import CentralOps.Lib.Decimal
import CentralOps.Retention.Schema
import CentralOps.Senders.ElasticBulk

namespace CentralOps
set_option autoImplicit true

def RowId.shown : RowId → String
  | .int n => n.repr
  | .text s => s

structure ErasureOutcome where
  destinationId : RowId
  erased : List String
  failed : List String
  detail : String

/-- The capabilities of the registered kinds; what building a destination's connector and its
`erase` with these events and this filter give; the keys of a pattern that are deleted where Redis
then fails; and the text of a violated foreign key. -/
structure DeletionEnv where
  capabilities : String → Option (List String)
  erase : DbRow → List String → Option RowId → Except String ErasureResult
  raises : String → Option (String → Bool)
  describe : ForeignKey Table String → String

/-- The database, the keys of Redis, and what came of the calls of connectors. -/
structure DeletionWorld (enforced : List (ForeignKey Table String)) where
  db : Tables enforced
  keys : List String
  outcomes : List ErasureOutcome := []

/-- `SCAN MATCH`, where a pattern has no wildcard but `*`. -/
def globMatches : List Char → List Char → Bool
  | [], s => s.isEmpty
  | c :: p, s =>
    if c = '*' then s.tails.any (globMatches p)
    else
      match s with
      | [] => false
      | d :: s => decide (c = d) && globMatches p s

def keyMatches (pattern key : String) : Bool := globMatches pattern.toList key.toList

section Deletions
variable {enforced : List (ForeignKey Table String)}

def idsWhere (db : Tables enforced) (t : Table) (column : String) (id : RowId) : List RowId :=
  (db.rows.filter (fun r => decide (r.table = t ∧ r.refs column = some id))).map TableRow.id

def integrationIdsForOrg (db : Tables enforced) (org : RowId) : List RowId :=
  idsWhere db .integrations "organization_id" org

def userIdsForOrg (db : Tables enforced) (org : RowId) : List RowId :=
  idsWhere db .appUsers "organization_id" org

structure DeletionStep where
  name : String
  statement : Option (Table × (DbRow → Bool))

def ofIntegrations (integrationIds : List RowId) (name : String) (t : Table) : List DeletionStep :=
  if integrationIds = [] then []
  else
    [⟨name, some (t, fun r =>
      (r.refs "integration_id").any (fun id => integrationIds.contains id))⟩]

def ofOrganization (org : RowId) (name : String) (t : Table) : List DeletionStep :=
  [⟨name, some (t, fun r => decide (r.refs "organization_id" = some org))⟩]

def ofUsers (userIds : List RowId) : List DeletionStep :=
  if userIds = [] then [] else [⟨"app_users", some (.appUsers, fun r => userIds.contains r.id)⟩]

def dependentSteps (org : RowId) (integrationIds userIds : List RowId) : List DeletionStep :=
  ofIntegrations integrationIds "search_results" .searchResults ++
    ofIntegrations integrationIds "history" .history ++
    [⟨"action_runs", none⟩] ++
    ofIntegrations integrationIds "quarantine_events" .quarantineEvents ++
    ofOrganization org "unknown_fields" .unknownFields ++
    ofIntegrations integrationIds "collection_state" .collectionState ++
    ofIntegrations integrationIds "backfill_jobs" .backfillJobs ++
    ofIntegrations integrationIds "mapping_audit_log" .mappingAuditLog ++
    ofOrganization org "integrations" .integrations ++
    ofUsers userIds

def organizationStep (org : RowId) : DeletionStep :=
  ⟨"organizations", some (.organizations, fun r => decide (r.id = org))⟩

abbrev Deleted (enforced : List (ForeignKey Table String)) :=
  Tables enforced × List (String × Nat)

def DeletionStep.run (step : DeletionStep) (d : Deleted enforced) :
    Except (ForeignKey Table String) (Deleted enforced) :=
  match step.statement with
  | none => .ok (d.1, d.2 ++ [(step.name, 0)])
  | some (t, p) =>
    match d.1.delete t p with
    | .error fk => .error fk
    | .ok (db, count) => .ok (db, d.2 ++ [(step.name, count)])

def runSteps : List DeletionStep → Deleted enforced →
    Except (ForeignKey Table String) (Deleted enforced)
  | [], d => .ok d
  | step :: steps, d =>
    match step.run d with
    | .error fk => .error fk
    | .ok d => runSteps steps d

def deleteOrganization (org : RowId) (db : Tables enforced) :
    Except (ForeignKey Table String) (Deleted enforced) :=
  runSteps (dependentSteps org (integrationIdsForOrg db org) (userIdsForOrg db org) ++
    [organizationStep org]) (db, [])

def purgePatterns (id : RowId) : List String :=
  ["collection:cursor:" ++ id.shown ++ ":*", "oauth_token:" ++ id.shown,
    "oauth_token:" ++ id.shown ++ ":*", "dedupe:" ++ id.shown ++ ":*",
    "pipeline_health:" ++ id.shown]

/-- What is left of the keys after these patterns, and whether Redis failed. -/
def purgeKeys (env : DeletionEnv) : List String → List String → List String × Bool
  | [], keys => (keys, false)
  | pattern :: patterns, keys =>
    match env.raises pattern with
    | some deleted => (keys.filter (fun k => !(keyMatches pattern k && deleted k)), true)
    | none => purgeKeys env patterns (keys.filter (fun k => !keyMatches pattern k))

def purgeRedisForIntegrations (env : DeletionEnv) (integrationIds : List RowId)
    (keys : List String) : List String × Bool :=
  purgeKeys env (integrationIds.flatMap purgePatterns) keys

namespace DbRow

def kind (r : DbRow) : String :=
  match r.data.getN "kind" with
  | .str s => s
  | _ => ""

def isEnabled (r : DbRow) : Bool := decide (r.data.getN "enabled" = .bool true)

def can (env : DeletionEnv) (r : DbRow) (capability : String) : Bool :=
  ((env.capabilities (kind r)).getD []).contains capability

end DbRow

def erasureDests (env : DeletionEnv) (org : RowId) (db : Tables enforced) : List DbRow :=
  db.rows.filter (fun r => decide (r.table = .destinations ∧ r.refs "organization_id" = some org) &&
    DbRow.isEnabled r && DbRow.can env r "erasure")

def dlqEventIds (org : RowId) (db : Tables enforced) : List String :=
  ((db.rows.filter (fun r =>
    decide (r.table = .destinationDlq ∧ r.refs "organization_id" = some org))).map (fun r =>
      match r.data.getN "event_id" with
      | .str s => s
      | _ => "")).eraseDups

/-- What comes of a destination, unless it is passed over. -/
def eraseDestination (env : DeletionEnv) (org : RowId) (eventIds : List String) (r : DbRow) :
    Option ErasureOutcome :=
  let byQuery := DbRow.can env r "erasure_by_query"
  if byQuery = false ∧ eventIds = [] then none
  else
    match env.erase r eventIds (if byQuery then some org else none) with
    | .ok result => some ⟨r.id, result.erased, result.failed, result.detail⟩
    | .error e =>
      some ⟨r.id, [], if eventIds = [] then ["org:" ++ org.shown] else eventIds,
        "erro ao construir/executar conector: " ++ e⟩

/-- `_run_destination_erasure`; any failed event makes it partial. -/
def runDestinationErasure (env : DeletionEnv) (org : RowId) (db : Tables enforced) :
    List ErasureOutcome × Bool :=
  let eventIds := dlqEventIds org db
  let outcomes := (erasureDests env org db).filterMap (eraseDestination env org eventIds)
  (outcomes, outcomes.any (fun o => !o.failed.isEmpty))

inductive DeletionResult where
  | notFound
  | retry (violated : ForeignKey Table String)
  | done (status : String) (rows : List (String × Nat))

/-- The organization of a job; the column is `NOT NULL`. -/
def jobOrganization (db : Tables enforced) (jobId : String) : Option RowId :=
  (db.get .dataDeletionJobs (.text jobId)).bind (fun job => job.refs "organization_id")

def setJob (db : Tables enforced) (jobId : String) (cells : Obj) : Tables enforced :=
  db.update .dataDeletionJobs (.text jobId) cells

/-- `execute_data_deletion`. -/
def executeDataDeletion (env : DeletionEnv) (jobId : String) (w : DeletionWorld enforced) :
    DeletionResult × DeletionWorld enforced :=
  match jobOrganization w.db jobId with
  | none => (.notFound, w)
  | some org =>
    let db := setJob w.db jobId [("status", .str "running")]
    match deleteOrganization org db with
    | .error fk =>
      (.retry fk, { w with
        db := setJob db jobId [("status", .str "failed"), ("last_error", .str (env.describe fk))] })
    | .ok (deleted, rows) =>
      let purged := purgeRedisForIntegrations env (integrationIdsForOrg db org) w.keys
      let erasure := runDestinationErasure env org deleted
      let status := if purged.2 || erasure.2 then "partial" else "completed"
      (.done status rows,
        { db := setJob deleted jobId [("status", .str status),
            ("rows_deleted", .obj (rows.map (fun p => (p.1, .int p.2))))]
          keys := purged.1
          outcomes := erasure.1 })

end Deletions

/-- The job ends as completed or partial, and the organization is gone. -/
def Finishes {enforced : List (ForeignKey Table String)} (env : DeletionEnv) (jobId : String)
    (w : DeletionWorld enforced) : Prop :=
  ∃ status rows org, jobOrganization w.db jobId = some org ∧
    (executeDataDeletion env jobId w).1 = .done status rows ∧
    (status = "completed" ∨ status = "partial") ∧
    ∀ r ∈ (executeDataDeletion env jobId w).2.db.rows, r.key ≠ (.organizations, org)

/-- The transaction is rolled back, the job is marked as failed, and the organization stays. -/
def FailsFor (env : DeletionEnv) (jobId : String) (w : DeletionWorld foreignKeys)
    (org : RowId) : Prop :=
  ∃ fk, executeDataDeletion env jobId w = (.retry fk, { w with
      db := setJob (setJob w.db jobId [("status", .str "running")]) jobId
        [("status", .str "failed"), ("last_error", .str (env.describe fk))] }) ∧
    ∃ r ∈ (executeDataDeletion env jobId w).2.db.rows, r.key = (.organizations, org)

section Blocked
variable {db out : Tables foreignKeys} {jobId : String} {org : RowId}

structure HoldsJob (jobId : String) (org : RowId) (db : Tables foreignKeys) : Prop where
  job : ∃ r ∈ db.rows, r.key = (.dataDeletionJobs, .text jobId) ∧
    r.refs "organization_id" = some org
  organization : ∃ r ∈ db.rows, r.key = (.organizations, org)

def jobForeignKey : ForeignKey Table String :=
  ⟨.dataDeletionJobs, "organization_id", .organizations, .restrict⟩

theorem target_job {job : DbRow} (htable : job.table = .dataDeletionJobs)
    (hrefs : job.refs "organization_id" = some org) :
    jobForeignKey.target job = some (.organizations, org) := by
  rw [ForeignKey.target, if_pos (show job.table = jobForeignKey.child from htable)]
  change (job.refs "organization_id").map _ = _
  rw [hrefs]
  rfl

theorem updateRow_refs (t : Table) (id : RowId) (cells : Obj) (r : DbRow) :
    (Tables.updateRow t id cells r).refs = r.refs := by
  rw [Tables.updateRow]
  split
  · rfl
  · rfl

theorem HoldsJob.setJob (h : HoldsJob jobId org db) (cells : Obj) :
    HoldsJob jobId org (setJob db jobId cells) := by
  obtain ⟨job, hjob, hkey, hrefs⟩ := h.job
  obtain ⟨organization, horg, hokey⟩ := h.organization
  refine ⟨⟨_, List.mem_map_of_mem hjob, ?_, ?_⟩, ⟨_, List.mem_map_of_mem horg, ?_⟩⟩
  · exact (Tables.updateRow_key _ _ _ _).trans hkey
  · rw [updateRow_refs]
    exact hrefs
  · exact (Tables.updateRow_key _ _ _ _).trans hokey

theorem HoldsJob.delete {t : Table} {p : DbRow → Bool} {n : Nat} (h : HoldsJob jobId org db)
    (hjobs : t ≠ .dataDeletionJobs) (horganizations : t ≠ .organizations)
    (hdelete : db.delete t p = .ok (out, n)) : HoldsJob jobId org out := by
  have hrows := Tables.delete_eq_ok hdelete
  obtain ⟨job, hjob, hkey, hrefs⟩ := h.job
  obtain ⟨organization, horg, hokey⟩ := h.organization
  have htable : job.table = .dataDeletionJobs := congrArg Prod.fst hkey
  have hotable : organization.table = .organizations := congrArg Prod.fst hokey
  constructor
  · obtain ⟨r, hr, hrkey, -, hcolumns⟩ := ForeignKey.delete_keeps hrows hjob
      (htable ▸ hjobs.symm) (by rw [htable]; decide)
    refine ⟨r, hr, hrkey.trans hkey, (hcolumns _ ?_).trans hrefs⟩
    rw [htable]
    decide
  · obtain ⟨r, hr, hrkey, -, -⟩ := ForeignKey.delete_keeps hrows horg
      (hotable ▸ horganizations.symm) (by rw [hotable]; decide)
    exact ⟨r, hr, hrkey.trans hokey⟩

/-- The deletion of the organization violates the foreign key of the job. -/
theorem organizationStep_blocked (h : HoldsJob jobId org db) (rows : List (String × Nat)) :
    ∃ fk, (organizationStep org).run (db, rows) = .error fk := by
  obtain ⟨job, hjob, hkey, hrefs⟩ := h.job
  obtain ⟨organization, horg, hokey⟩ := h.organization
  have htable : job.table = .dataDeletionJobs := congrArg Prod.fst hkey
  have hotable : organization.table = .organizations := congrArg Prod.fst hokey
  have hid : organization.id = org := congrArg Prod.snd hokey
  let p : DbRow → Bool := fun r => decide (r.id = org)
  have hgone : organization.key ∈ ForeignKey.doomed foreignKeys db.rows .organizations p :=
    ForeignKey.mem_doomed horg hotable (decide_eq_true hid)
  have hstays : job.key ∉ ForeignKey.doomed foreignKeys db.rows .organizations p := by
    apply ForeignKey.notMem_doomed
    · rw [htable]
      decide
    · rw [htable]
      decide
  have hblocks : jobForeignKey.Meets (ForeignKey.doomed foreignKeys db.rows .organizations p) job :=
    ⟨_, target_job htable hrefs, hokey ▸ hgone⟩
  have hdeclared : jobForeignKey ∈ foreignKeys := by decide
  obtain ⟨fk, hfk⟩ := Tables.delete_eq_error
    (ForeignKey.delete_blocked hdeclared (.inr rfl) hjob hstays hblocks)
  refine ⟨fk, ?_⟩
  rw [DeletionStep.run, organizationStep]
  simp only [p] at hfk
  simp only [hfk]

theorem runSteps_blocked {steps : List DeletionStep} {d : Deleted foreignKeys}
    (h : HoldsJob jobId org d.1)
    (hsteps : ∀ step ∈ steps, ∀ t p, step.statement = some (t, p) →
      t ≠ .dataDeletionJobs ∧ t ≠ .organizations) :
    ∃ fk, runSteps (steps ++ [organizationStep org]) d = .error fk := by
  induction steps generalizing d with
  | nil =>
    obtain ⟨fk, hfk⟩ := organizationStep_blocked h d.2
    refine ⟨fk, ?_⟩
    rw [List.nil_append, runSteps, hfk]
  | cons step steps ih =>
    rw [List.cons_append, runSteps]
    cases hrun : step.run d with
    | error fk => exact ⟨fk, rfl⟩
    | ok d' =>
      apply ih _ (fun s hs => hsteps s (List.mem_cons_of_mem _ hs))
      rw [DeletionStep.run] at hrun
      cases hstatement : step.statement with
      | none =>
        rw [hstatement] at hrun
        cases hrun
        exact h
      | some statement =>
        obtain ⟨t, p⟩ := statement
        obtain ⟨hjobs, horganizations⟩ := hsteps step List.mem_cons_self t p hstatement
        rw [hstatement] at hrun
        simp only [] at hrun
        cases hdelete : d.1.delete t p with
        | error fk =>
          rw [hdelete] at hrun
          cases hrun
        | ok deleted =>
          rw [hdelete] at hrun
          cases hrun
          exact h.delete hjobs horganizations hdelete

theorem mem_ofIntegrations {integrationIds : List RowId} {name : String} {t t' : Table}
    {p : DbRow → Bool} {step : DeletionStep} (h : step ∈ ofIntegrations integrationIds name t)
    (hstatement : step.statement = some (t', p)) : t' = t := by
  rw [ofIntegrations] at h
  split at h
  · cases h
  · obtain rfl := List.mem_singleton.1 h
    exact (congrArg Prod.fst (Option.some.inj hstatement)).symm

theorem mem_ofOrganization {name : String} {t t' : Table} {p : DbRow → Bool} {step : DeletionStep}
    (h : step ∈ ofOrganization org name t) (hstatement : step.statement = some (t', p)) :
    t' = t := by
  obtain rfl := List.mem_singleton.1 h
  exact (congrArg Prod.fst (Option.some.inj hstatement)).symm

theorem mem_ofUsers {userIds : List RowId} {t : Table} {p : DbRow → Bool} {step : DeletionStep}
    (h : step ∈ ofUsers userIds) (hstatement : step.statement = some (t, p)) : t = .appUsers := by
  rw [ofUsers] at h
  split at h
  · cases h
  · obtain rfl := List.mem_singleton.1 h
    exact (congrArg Prod.fst (Option.some.inj hstatement)).symm

theorem dependentSteps_tables {integrationIds userIds : List RowId} {step : DeletionStep}
    (h : step ∈ dependentSteps org integrationIds userIds) {t : Table} {p : DbRow → Bool}
    (hstatement : step.statement = some (t, p)) : t ≠ .dataDeletionJobs ∧ t ≠ .organizations := by
  simp only [dependentSteps, List.mem_append, or_assoc] at h
  obtain h | h | h | h | h | h | h | h | h | h := h
  · exact mem_ofIntegrations h hstatement ▸ by decide
  · exact mem_ofIntegrations h hstatement ▸ by decide
  · rw [List.mem_singleton.1 h] at hstatement
    cases hstatement
  · exact mem_ofIntegrations h hstatement ▸ by decide
  · exact mem_ofOrganization h hstatement ▸ by decide
  · exact mem_ofIntegrations h hstatement ▸ by decide
  · exact mem_ofIntegrations h hstatement ▸ by decide
  · exact mem_ofIntegrations h hstatement ▸ by decide
  · exact mem_ofOrganization h hstatement ▸ by decide
  · exact mem_ofUsers h hstatement ▸ by decide

theorem deleteOrganization_blocked (h : HoldsJob jobId org db) :
    ∃ fk, deleteOrganization org db = .error fk :=
  runSteps_blocked h fun _ hstep _ _ hstatement => dependentSteps_tables hstep hstatement

theorem holdsJob_of_jobOrganization (h : jobOrganization db jobId = some org) :
    HoldsJob jobId org db := by
  obtain ⟨job, hget, hrefs⟩ := Option.bind_eq_some_iff.1 h
  obtain ⟨hjob, hkey⟩ := Tables.get_eq_some hget
  have hdeclared : jobForeignKey ∈ foreignKeys := by decide
  exact ⟨⟨job, hjob, hkey, hrefs⟩, db.intact.named job hjob _ hdeclared _
    (target_job (congrArg Prod.fst hkey) hrefs)⟩

theorem executeDataDeletion_fails (env : DeletionEnv) {w : DeletionWorld foreignKeys}
    (h : jobOrganization w.db jobId = some org) : FailsFor env jobId w org := by
  have hheld := (holdsJob_of_jobOrganization h).setJob [("status", .str "running")]
  obtain ⟨fk, hfk⟩ := deleteOrganization_blocked hheld
  have hrun : executeDataDeletion env jobId w = (.retry fk, { w with
      db := setJob (setJob w.db jobId [("status", .str "running")]) jobId
        [("status", .str "failed"), ("last_error", .str (env.describe fk))] }) := by
    rw [executeDataDeletion, h]
    simp only [hfk]
  refine ⟨fk, hrun, ?_⟩
  rw [hrun]
  exact (hheld.setJob _).organization

end Blocked

/-- Every deletion job fails, and its organization stays. -/
theorem data_deletion_fails (env : DeletionEnv) (jobId : String) (w : DeletionWorld foreignKeys)
    (org : RowId) (h : jobOrganization w.db jobId = some org) :
    ¬ Finishes env jobId w ∧ FailsFor env jobId w org := by
  have hfails := executeDataDeletion_fails env h
  refine ⟨?_, hfails⟩
  rintro ⟨status, rows, org', -, hdone, -⟩
  obtain ⟨fk, hrun, -⟩ := hfails
  rw [hrun] at hdone
  cases hdone

section Example

def bareOrganization : List DbRow :=
  [⟨.organizations, .int 1, fun _ => none, [("slug", .str "acme")]⟩,
    ⟨.dataDeletionJobs, .text "job-1",
      fun c => if c = "organization_id" then some (.int 1) else none,
      [("status", .str "pending")]⟩]

def bareWorld : DeletionWorld foreignKeys where
  db := ⟨bareOrganization, ForeignKey.intact_of_all (by decide +kernel) (by decide +kernel)⟩
  keys := []

/-- Nothing fails, and only `elastic_bulk` and `s3` know how to erase. -/
def calmEnv : DeletionEnv where
  capabilities kind :=
    if kind = "elastic_bulk" then
      some ["tls", "batch", "test", "idempotent", "partial_batch", "erasure", "erasure_by_query"]
    else if kind = "s3" then
      some ["tls", "batch", "test", "idempotent", "erasure_by_query", "retention"]
    else some []
  erase _ ids _ := .ok ⟨ids, [], ""⟩
  raises _ := none
  describe _ := "update or delete on table organizations violates foreign key constraint"

theorem bareWorld_fails :
    ¬ Finishes calmEnv "job-1" bareWorld ∧ FailsFor calmEnv "job-1" bareWorld (.int 1) :=
  data_deletion_fails calmEnv "job-1" bareWorld (.int 1) (by decide +kernel)

theorem bareOrganization_stays :
    ¬ ∀ (env : DeletionEnv) (jobId : String) (w : DeletionWorld foreignKeys) (org : RowId),
      jobOrganization w.db jobId = some org → Finishes env jobId w := by
  intro h
  have hjob : jobOrganization bareWorld.db "job-1" = some (.int 1) := by decide +kernel
  obtain ⟨status, rows, org, -, hdone, -⟩ := h calmEnv "job-1" bareWorld (.int 1) hjob
  obtain ⟨fk, hrun, -⟩ := executeDataDeletion_fails calmEnv hjob
  rw [hrun] at hdone
  cases hdone

end Example

end CentralOps
