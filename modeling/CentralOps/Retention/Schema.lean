import CentralOps.Json
import CentralOps.Lib.ForeignKeys

namespace CentralOps
set_option autoImplicit true

inductive Table where
  | organizations | destinationCustomerMappings | integrations | integrationCredentials
  | collectionState | integrationHealthChecks | integrationTenantSelections | appUsers
  | userSessions | history | auditLogs | searchResults | queryJobs | detections
  | correlationRules | predefinedQueries | scheduledQueries | notificationEmails
  | syslogSources | destinations | routes | routeAuditLog | destinationDlq
  | credentialAccessLog | destinationAuditLog | mappingDefinitions | mappingVersions
  | organizationOcsfPolicy | unknownFields | quarantineEvents | backfillJobs
  | organizationRetentionConfig | dataDeletionJobs | mappingAuditLog | serviceAccounts
  | apiTokens | enrichmentSources | enrichmentSourceOrgs | enrichmentPolicies
  | enrichmentPolicyVersions | enrichmentTables | enrichmentTableVersions | enrichmentConfig
  deriving DecidableEq

/-- The foreign keys of the models. -/
def foreignKeys : List (ForeignKey Table String) :=
  [⟨.organizations, "partner_integration_id", .integrations, .setNull⟩,
    ⟨.organizations, "parent_organization_id", .organizations, .restrict⟩,
    ⟨.organizations, "root_id", .organizations, .setNull⟩,
    ⟨.destinationCustomerMappings, "organization_id", .organizations, .cascade⟩,
    ⟨.integrations, "organization_id", .organizations, .cascade⟩,
    ⟨.integrations, "parent_integration_id", .integrations, .setNull⟩,
    ⟨.integrationCredentials, "integration_id", .integrations, .cascade⟩,
    ⟨.collectionState, "integration_id", .integrations, .cascade⟩,
    ⟨.integrationHealthChecks, "integration_id", .integrations, .cascade⟩,
    ⟨.integrationTenantSelections, "parent_integration_id", .integrations, .cascade⟩,
    ⟨.integrationTenantSelections, "decided_by_user_id", .appUsers, .setNull⟩,
    ⟨.appUsers, "organization_id", .organizations, .setNull⟩,
    ⟨.userSessions, "user_id", .appUsers, .cascade⟩,
    ⟨.history, "integration_id", .integrations, .setNull⟩,
    ⟨.history, "user_id", .appUsers, .setNull⟩,
    ⟨.auditLogs, "user_id", .appUsers, .setNull⟩,
    ⟨.auditLogs, "organization_id", .organizations, .setNull⟩,
    ⟨.searchResults, "integration_id", .integrations, .setNull⟩,
    ⟨.searchResults, "user_id", .appUsers, .setNull⟩,
    ⟨.searchResults, "schedule_id", .scheduledQueries, .setNull⟩,
    ⟨.searchResults, "organization_id", .organizations, .cascade⟩,
    ⟨.searchResults, "query_job_id", .queryJobs, .cascade⟩,
    ⟨.queryJobs, "organization_id", .organizations, .cascade⟩,
    ⟨.queryJobs, "user_id", .appUsers, .setNull⟩,
    ⟨.queryJobs, "correlation_rule_id", .correlationRules, .setNull⟩,
    ⟨.detections, "organization_id", .organizations, .cascade⟩,
    ⟨.detections, "source_query_id", .predefinedQueries, .setNull⟩,
    ⟨.detections, "integration_id", .integrations, .setNull⟩,
    ⟨.detections, "search_result_id", .searchResults, .setNull⟩,
    ⟨.correlationRules, "organization_id", .organizations, .cascade⟩,
    ⟨.correlationRules, "schedule_query_id", .predefinedQueries, .setNull⟩,
    ⟨.correlationRules, "created_by_user_id", .appUsers, .setNull⟩,
    ⟨.predefinedQueries, "organization_id", .organizations, .setNull⟩,
    ⟨.scheduledQueries, "query_id", .predefinedQueries, .cascade⟩,
    ⟨.scheduledQueries, "organization_id", .organizations, .setNull⟩,
    ⟨.notificationEmails, "organization_id", .organizations, .cascade⟩,
    ⟨.syslogSources, "organization_id", .organizations, .cascade⟩,
    ⟨.syslogSources, "integration_id", .integrations, .cascade⟩,
    ⟨.destinations, "organization_id", .organizations, .cascade⟩,
    ⟨.routes, "organization_id", .organizations, .cascade⟩,
    ⟨.routeAuditLog, "organization_id", .organizations, .cascade⟩,
    ⟨.destinationDlq, "organization_id", .organizations, .cascade⟩,
    ⟨.credentialAccessLog, "organization_id", .organizations, .cascade⟩,
    ⟨.destinationAuditLog, "organization_id", .organizations, .cascade⟩,
    ⟨.mappingDefinitions, "current_version_id", .mappingVersions, .noAction⟩,
    ⟨.mappingVersions, "definition_id", .mappingDefinitions, .cascade⟩,
    ⟨.mappingVersions, "author_user_id", .appUsers, .setNull⟩,
    ⟨.organizationOcsfPolicy, "organization_id", .organizations, .cascade⟩,
    ⟨.unknownFields, "organization_id", .organizations, .cascade⟩,
    ⟨.quarantineEvents, "organization_id", .organizations, .cascade⟩,
    ⟨.quarantineEvents, "integration_id", .integrations, .cascade⟩,
    ⟨.quarantineEvents, "mapping_version_id", .mappingVersions, .setNull⟩,
    ⟨.backfillJobs, "integration_id", .integrations, .cascade⟩,
    ⟨.backfillJobs, "requested_by_user_id", .appUsers, .setNull⟩,
    ⟨.organizationRetentionConfig, "organization_id", .organizations, .cascade⟩,
    ⟨.dataDeletionJobs, "organization_id", .organizations, .restrict⟩,
    ⟨.dataDeletionJobs, "requested_by_user_id", .appUsers, .setNull⟩,
    ⟨.mappingAuditLog, "mapping_definition_id", .mappingDefinitions, .setNull⟩,
    ⟨.mappingAuditLog, "mapping_version_id", .mappingVersions, .setNull⟩,
    ⟨.mappingAuditLog, "integration_id", .integrations, .setNull⟩,
    ⟨.mappingAuditLog, "user_id", .appUsers, .setNull⟩,
    ⟨.serviceAccounts, "organization_id", .organizations, .setNull⟩,
    ⟨.serviceAccounts, "created_by_user_id", .appUsers, .setNull⟩,
    ⟨.apiTokens, "user_id", .appUsers, .cascade⟩,
    ⟨.apiTokens, "service_account_id", .serviceAccounts, .cascade⟩,
    ⟨.enrichmentSources, "organization_id", .organizations, .cascade⟩,
    ⟨.enrichmentSourceOrgs, "source_id", .enrichmentSources, .cascade⟩,
    ⟨.enrichmentSourceOrgs, "organization_id", .organizations, .cascade⟩,
    ⟨.enrichmentPolicies, "organization_id", .organizations, .cascade⟩,
    ⟨.enrichmentPolicyVersions, "policy_id", .enrichmentPolicies, .cascade⟩,
    ⟨.enrichmentPolicyVersions, "author_user_id", .appUsers, .setNull⟩,
    ⟨.enrichmentTables, "organization_id", .organizations, .cascade⟩,
    ⟨.enrichmentTableVersions, "table_id", .enrichmentTables, .cascade⟩,
    ⟨.enrichmentTableVersions, "author_user_id", .appUsers, .setNull⟩,
    ⟨.enrichmentConfig, "updated_by_user_id", .appUsers, .setNull⟩]

/-- Integer and text primary keys. -/
inductive RowId where
  | int (n : Int)
  | text (s : String)
  deriving DecidableEq

abbrev DbRow := TableRow Table String RowId Obj

structure Tables (enforced : List (ForeignKey Table String)) where
  rows : List DbRow
  intact : ForeignKey.Intact enforced rows

namespace Tables

variable {enforced : List (ForeignKey Table String)}

/-- `db.get`. -/
def get (db : Tables enforced) (t : Table) (id : RowId) : Option DbRow :=
  db.rows.find? (fun r => decide (r.key = (t, id)))

theorem get_eq_some {db : Tables enforced} {t : Table} {id : RowId} {r : DbRow}
    (h : db.get t id = some r) : r ∈ db.rows ∧ r.key = (t, id) := by
  have hkey := List.find?_some h
  exact ⟨List.mem_of_find?_eq_some h, of_decide_eq_true hkey⟩

/-- `DELETE FROM t WHERE p`, with the number of its rows. -/
def delete (db : Tables enforced) (t : Table) (p : DbRow → Bool) :
    Except (ForeignKey Table String) (Tables enforced × Nat) :=
  match h : ForeignKey.delete enforced db.rows t p with
  | .error fk => .error fk
  | .ok rows =>
    .ok (⟨rows, db.intact.delete h⟩,
      (db.rows.filter (fun r => decide (r.table = t) && p r)).length)

theorem delete_eq_ok {db out : Tables enforced} {t : Table} {p : DbRow → Bool} {n : Nat}
    (h : db.delete t p = .ok (out, n)) : ForeignKey.delete enforced db.rows t p = .ok out.rows := by
  rw [delete] at h
  split at h
  · cases h
  · next rows hrows =>
    cases h
    exact hrows

theorem delete_eq_error {db : Tables enforced} {t : Table} {p : DbRow → Bool}
    (h : ∃ fk, ForeignKey.delete enforced db.rows t p = .error fk) :
    ∃ fk, db.delete t p = .error fk := by
  obtain ⟨fk, hfk⟩ := h
  rw [delete]
  split
  · next fk' _ => exact ⟨fk', rfl⟩
  · next rows hrows =>
    rw [hfk] at hrows
    cases hrows

def assign (cells : Obj) (r : DbRow) : DbRow :=
  { r with data := cells.foldl (fun data p => Assoc.set p.1 p.2 data) r.data }

def updateRow (t : Table) (id : RowId) (cells : Obj) (r : DbRow) : DbRow :=
  if r.key = (t, id) then assign cells r else r

theorem updateRow_key (t : Table) (id : RowId) (cells : Obj) (r : DbRow) :
    (updateRow t id cells r).key = r.key := by
  rw [updateRow]
  split
  · rfl
  · rfl

theorem target_updateRow (fk : ForeignKey Table String) (t : Table) (id : RowId) (cells : Obj)
    (r : DbRow) : fk.target (updateRow t id cells r) = fk.target r := by
  rw [updateRow]
  split
  · rfl
  · rfl

/-- Cells that are no foreign keys are set in one row. -/
def update (db : Tables enforced) (t : Table) (id : RowId) (cells : Obj) : Tables enforced where
  rows := db.rows.map (updateRow t id cells)
  intact := by
    constructor
    · rw [List.map_map, show TableRow.key ∘ updateRow t id cells = TableRow.key from
        funext (updateRow_key t id cells)]
      exact db.intact.unique
    · intro r hr fk hfk key htarget
      obtain ⟨old, hold, rfl⟩ := List.mem_map.1 hr
      rw [target_updateRow] at htarget
      obtain ⟨parent, hparent, rfl⟩ := db.intact.named old hold fk hfk key htarget
      exact ⟨_, List.mem_map_of_mem hparent, updateRow_key t id cells parent⟩

end Tables

end CentralOps
