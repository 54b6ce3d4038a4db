import CentralOps.Collection.Dedupe
import CentralOps.Retention.DataDeletion

namespace CentralOps
set_option autoImplicit true

def tokenKey (integrationId : Int) : String := "oauth:token:" ++ integrationId.repr

def hotKey (integrationId : Int) (stream : String) : String :=
  "collection:cursor:" ++ integrationId.repr ++ ":" ++ stream

section Patterns
variable {a p s : List Char} {key : String}

/-- A pattern begins with characters that are no wildcard. -/
theorem globMatches_append (h : '*' ∉ a) :
    globMatches (a ++ p) s = true ↔ ∃ rest, s = a ++ rest ∧ globMatches p rest = true := by
  induction a generalizing s with
  | nil =>
    constructor
    · intro hmatch
      exact ⟨s, rfl, hmatch⟩
    · rintro ⟨rest, rfl, hmatch⟩
      exact hmatch
  | cons c a ih =>
    obtain ⟨hc, ha⟩ := not_or.1 (mt List.mem_cons.2 h)
    rw [List.cons_append, globMatches.eq_def]
    simp only [if_neg (Ne.symm hc)]
    cases s with
    | nil =>
      constructor
      · intro hmatch
        cases hmatch
      · rintro ⟨rest, hrest, -⟩
        cases hrest
    | cons d s =>
      simp only [Bool.and_eq_true, decide_eq_true_eq, ih ha, List.cons_append, List.cons.injEq]
      constructor
      · rintro ⟨rfl, rest, rfl, hmatch⟩
        exact ⟨rest, ⟨rfl, rfl⟩, hmatch⟩
      · rintro ⟨rest, ⟨rfl, rfl⟩, hmatch⟩
        exact ⟨rfl, rest, rfl, hmatch⟩

theorem globMatches_star (s : List Char) : globMatches ['*'] s = true := by
  rw [globMatches.eq_def]
  simp only [if_pos, List.any_eq_true]
  exact ⟨[], (List.mem_tails _ _).2 List.nil_suffix, rfl⟩

theorem keyMatches_of_start {pattern key : String} (h : '*' ∉ a)
    (hpattern : pattern.toList = a ++ ['*']) (hkey : key.toList = a ++ s) :
    keyMatches pattern key = true := by
  rw [keyMatches, hpattern, hkey, globMatches_append h]
  exact ⟨s, rfl, globMatches_star s⟩

theorem start_of_keyMatches {pattern key : String} (h : '*' ∉ a)
    (hpattern : pattern.toList = a ++ p) (hmatch : keyMatches pattern key = true) :
    a <+: key.toList := by
  rw [keyMatches, hpattern, globMatches_append h] at hmatch
  obtain ⟨rest, hkey, -⟩ := hmatch
  exact ⟨rest, hkey.symm⟩

end Patterns

section Purge
variable {env : DeletionEnv} {patterns keys : List String} {key : String}

theorem purgeKeys_fails : (purgeKeys env patterns keys).2 = true ↔
    ∃ pattern ∈ patterns, (env.raises pattern).isSome = true := by
  induction patterns generalizing keys with
  | nil =>
    constructor
    · intro h
      cases h
    · rintro ⟨pattern, hmem, -⟩
      cases hmem
  | cons pattern patterns ih =>
    rw [purgeKeys, List.exists_mem_cons_iff]
    cases hraises : env.raises pattern with
    | some deleted =>
      constructor
      · intro _
        exact .inl rfl
      · intro _
        rfl
    | none =>
      simp only [ih, Option.isSome_none, Bool.false_eq_true, false_or]

theorem mem_purgeKeys (h : ∀ pattern ∈ patterns, env.raises pattern = none) :
    key ∈ (purgeKeys env patterns keys).1 ↔
      key ∈ keys ∧ ∀ pattern ∈ patterns, keyMatches pattern key = false := by
  induction patterns generalizing keys with
  | nil => exact ⟨fun hkey => ⟨hkey, fun _ hmem => nomatch hmem⟩, fun hkey => hkey.1⟩
  | cons pattern patterns ih =>
    rw [purgeKeys, h pattern List.mem_cons_self]
    simp only []
    rw [ih (fun q hq => h q (List.mem_cons_of_mem _ hq)), List.mem_filter, List.forall_mem_cons,
      Bool.not_eq_true', and_assoc]

end Purge

section Families
variable {n : Int} {id : RowId} {pattern : String}

theorem label_purged {label : String} (h : '*' ∉ label.toList) (n : Int) (rest : String) :
    keyMatches (label ++ n.repr ++ ":*") (label ++ n.repr ++ ":" ++ rest) = true := by
  have hstar : '*' ∉ label.toList ++ n.repr.toList ++ [':'] := by
    simp only [List.mem_append, not_or]
    exact ⟨⟨h, Decimal.notMem_repr n rfl (by decide)⟩, by decide⟩
  apply keyMatches_of_start (s := rest.toList) hstar
  · have hend : ":*".toList = [':'] ++ ['*'] := by decide
    simp only [String.toList_append, List.append_assoc, hend]
  · have hcolon : ":".toList = [':'] := by decide
    simp only [String.toList_append, List.append_assoc, hcolon]

theorem hotKey_purged (n : Int) (stream : String) :
    ∃ pattern ∈ purgePatterns (.int n), keyMatches pattern (hotKey n stream) = true := by
  exact ⟨_, .head _, label_purged (by decide) n stream⟩

theorem dedupeKey_purged (n : Int) (messageId : String) :
    ∃ pattern ∈ purgePatterns (.int n), keyMatches pattern (dedupeKey n messageId) = true := by
  exact ⟨_, .tail _ (.tail _ (.tail _ (.head _))), label_purged (by decide) n messageId⟩

theorem tokenKey_kept (h : pattern ∈ purgePatterns id) :
    keyMatches pattern (tokenKey n) = false := by
  have hlabel : ∃ label ∈ ["collection:cursor:", "oauth_token:", "dedupe:", "pipeline_health:"],
      ∃ rest, pattern = label ++ rest := by
    rw [purgePatterns] at h
    simp only [List.mem_cons, List.not_mem_nil, or_false] at h
    obtain rfl | rfl | rfl | rfl | rfl := h
    · exact ⟨_, .head _, _, String.append_assoc⟩
    · exact ⟨_, .tail _ (.head _), _, rfl⟩
    · exact ⟨_, .tail _ (.head _), _, String.append_assoc⟩
    · exact ⟨_, .tail _ (.tail _ (.head _)), _, String.append_assoc⟩
    · exact ⟨_, .tail _ (.tail _ (.tail _ (.head _))), _, rfl⟩
  obtain ⟨label, hmem, rest, rfl⟩ := hlabel
  have hother : '*' ∉ label.toList ∧ ¬ label.toList <+: (tokenKey n).toList := by
    rw [tokenKey, String.toList_append]
    simp only [List.mem_cons, List.not_mem_nil, or_false] at hmem
    obtain rfl | rfl | rfl | rfl := hmem
    · exact ⟨by decide, by simp⟩
    · exact ⟨by decide, by simp⟩
    · exact ⟨by decide, by simp⟩
    · exact ⟨by decide, by simp⟩
  rw [← Bool.not_eq_true]
  intro hmatch
  exact hother.2 (start_of_keyMatches hother.1 (String.toList_append ..) hmatch)

end Families

def Wrote (id : RowId) (key : String) : Prop :=
  ∃ n, id = .int n ∧
    (key = tokenKey n ∨ (∃ stream, key = hotKey n stream) ∨
      ∃ messageId, key = dedupeKey n messageId)

/-- An enabled destination to which events of the organization may go, of a kind that declares how
to erase them. -/
structure Erasable (env : DeletionEnv) (org : RowId) (r : DbRow) : Prop where
  table : r.table = .destinations
  owner : r.refs "organization_id" = some org ∨ r.refs "organization_id" = none
  enabled : DbRow.isEnabled r = true
  erases : DbRow.can env r "erasure" = true ∨ DbRow.can env r "erasure_by_query" = true

def DeletionResult.status : DeletionResult → Option String
  | .done status _ => some status
  | _ => none

section Completed
variable {enforced : List (ForeignKey Table String)}

structure AllErased (env : DeletionEnv) (org : RowId) (w u : DeletionWorld enforced) : Prop where
  destinations : ∀ r ∈ w.db.rows, Erasable env org r →
    ∃ o ∈ u.outcomes, o.destinationId = r.id ∧ o.failed = []
  keys : ∀ id ∈ integrationIdsForOrg w.db org, ∀ key ∈ u.keys, ¬ Wrote id key

/-- A deletion that ends as completed has erased everything, and any other ends as partial. -/
def CompletedMeansErased (env : DeletionEnv) (jobId : String) (w : DeletionWorld enforced)
    (org : RowId) : Prop :=
  ((executeDataDeletion env jobId w).1.status = some "completed" →
      AllErased env org w (executeDataDeletion env jobId w).2) ∧
    (¬ AllErased env org w (executeDataDeletion env jobId w).2 →
      (executeDataDeletion env jobId w).1.status = some "partial")

/-- Redis fails at a pattern of an integration of the organization. -/
def PurgeFails (env : DeletionEnv) (w : DeletionWorld enforced) (org : RowId) : Prop :=
  ∃ id ∈ integrationIdsForOrg w.db org, ∃ pattern ∈ purgePatterns id,
    (env.raises pattern).isSome = true

/-- No destination can erase, and no integration has a cached token. -/
structure NothingMissed (env : DeletionEnv) (w : DeletionWorld enforced) (org : RowId) : Prop where
  destinations : ∀ r ∈ w.db.rows, ¬ Erasable env org r
  tokens : ∀ n, RowId.int n ∈ integrationIdsForOrg w.db org → tokenKey n ∉ w.keys

/-- The foreign key of the destinations to their organization. -/
def destinationForeignKey : ForeignKey Table String :=
  ⟨.destinations, "organization_id", .organizations, .cascade⟩

section Cascade
variable {db : Tables enforced} {org : RowId} {deleted : Deleted enforced}

theorem runSteps_last {steps : List DeletionStep} {last : DeletionStep} {d : Deleted enforced}
    (h : runSteps (steps ++ [last]) d = .ok deleted) : ∃ d', last.run d' = .ok deleted := by
  induction steps generalizing d with
  | nil =>
    rw [List.nil_append, runSteps] at h
    cases hrun : last.run d with
    | error fk =>
      rw [hrun] at h
      cases h
    | ok d' =>
      rw [hrun] at h
      exact ⟨d, hrun.trans h⟩
  | cons step steps ih =>
    rw [List.cons_append, runSteps] at h
    cases hrun : step.run d with
    | error fk =>
      rw [hrun] at h
      cases h
    | ok d' =>
      rw [hrun] at h
      exact ih h

theorem organizationStep_gone {d : Deleted enforced}
    (h : (organizationStep org).run d = .ok deleted) :
    ∀ r ∈ deleted.1.rows, r.key ≠ (.organizations, org) := by
  intro r hr hkey
  rw [DeletionStep.run, organizationStep] at h
  simp only [] at h
  cases hdelete : d.1.delete .organizations (fun r => decide (r.id = org)) with
  | error fk =>
    rw [hdelete] at h
    cases h
  | ok out =>
    rw [hdelete] at h
    cases h
    obtain ⟨old, hold, rfl, hstays⟩ :=
      ForeignKey.delete_origin (Tables.delete_eq_ok hdelete) hr
    exact hstays (ForeignKey.mem_doomed hold (congrArg Prod.fst hkey)
      (decide_eq_true (congrArg Prod.snd hkey)))

theorem deleteOrganization_gone (h : deleteOrganization org db = .ok deleted) :
    ∀ r ∈ deleted.1.rows, r.key ≠ (.organizations, org) := by
  obtain ⟨d', hrun⟩ := runSteps_last h
  exact organizationStep_gone hrun

theorem deleteOrganization_destinations (hcascade : destinationForeignKey ∈ enforced)
    (h : deleteOrganization org db = .ok deleted) {r : DbRow} (hr : r ∈ deleted.1.rows)
    (htable : r.table = .destinations) : r.refs "organization_id" ≠ some org := by
  intro hrefs
  have htarget : destinationForeignKey.target r = some (.organizations, org) := by
    rw [ForeignKey.target, if_pos (show r.table = destinationForeignKey.child from htable)]
    change (r.refs "organization_id").map _ = _
    rw [hrefs]
    rfl
  obtain ⟨parent, hparent, hkey⟩ := deleted.1.intact.named r hr _ hcascade _ htarget
  exact deleteOrganization_gone h parent hparent hkey

theorem erasureDests_after (env : DeletionEnv) (hcascade : destinationForeignKey ∈ enforced)
    (h : deleteOrganization org db = .ok deleted) : erasureDests env org deleted.1 = [] := by
  rw [erasureDests, List.filter_eq_nil_iff]
  intro r hr hcond
  simp only [Bool.and_eq_true, decide_eq_true_eq] at hcond
  exact deleteOrganization_destinations hcascade h hr hcond.1.1.1 hcond.1.1.2

end Cascade

theorem updateRow_table (t : Table) (id : RowId) (cells : Obj) (r : DbRow) :
    (Tables.updateRow t id cells r).table = r.table := congrArg Prod.fst (Tables.updateRow_key ..)

theorem updateRow_id (t : Table) (id : RowId) (cells : Obj) (r : DbRow) :
    (Tables.updateRow t id cells r).id = r.id := congrArg Prod.snd (Tables.updateRow_key ..)

theorem integrationIdsForOrg_setJob (db : Tables enforced) (jobId : String) (cells : Obj)
    (org : RowId) : integrationIdsForOrg (setJob db jobId cells) org =
      integrationIdsForOrg db org := by
  rw [integrationIdsForOrg, integrationIdsForOrg, idsWhere, idsWhere, setJob, Tables.update,
    List.filter_map, List.map_map]
  have hid : TableRow.id ∘ Tables.updateRow .dataDeletionJobs (.text jobId) cells = TableRow.id :=
    funext (updateRow_id _ _ _)
  rw [hid]
  apply congrArg (List.map TableRow.id)
  apply List.filter_congr
  intro r _
  rw [Function.comp_apply, updateRow_table, updateRow_refs]

section Run
variable {env : DeletionEnv} {jobId : String} {w : DeletionWorld enforced} {org : RowId}

theorem execute_commits (hcascade : destinationForeignKey ∈ enforced)
    (hjob : jobOrganization w.db jobId = some org)
    (hcommits : (executeDataDeletion env jobId w).1.status ≠ none) :
    (executeDataDeletion env jobId w).2.outcomes = [] ∧
      (executeDataDeletion env jobId w).2.keys =
        (purgeRedisForIntegrations env (integrationIdsForOrg w.db org) w.keys).1 ∧
      (executeDataDeletion env jobId w).1.status =
        if (purgeRedisForIntegrations env (integrationIdsForOrg w.db org) w.keys).2 then
          some "partial" else some "completed" := by
  rw [executeDataDeletion, hjob] at hcommits ⊢
  simp only [integrationIdsForOrg_setJob] at hcommits ⊢
  cases hdelete : deleteOrganization org (setJob w.db jobId [("status", .str "running")]) with
  | error fk =>
    rw [hdelete] at hcommits
    exact absurd rfl hcommits
  | ok deleted =>
    have herasure : runDestinationErasure env org deleted.1 = ([], false) := by
      rw [runDestinationErasure, erasureDests_after env hcascade hdelete]
      rfl
    simp only [herasure, Bool.or_false, true_and, DeletionResult.status]
    split
    · rfl
    · rfl

theorem unbound_setJob {db : Tables enforced} (h : ForeignKey.Unbound enforced db.rows)
    (jobId : String) (cells : Obj) : ForeignKey.Unbound enforced (setJob db jobId cells).rows := by
  intro r hr fk hfk haction
  obtain ⟨old, hold, rfl⟩ := List.mem_map.1 hr
  rw [Tables.target_updateRow]
  exact h old hold fk hfk haction

theorem runSteps_unbound (steps : List DeletionStep) {d : Deleted enforced}
    (h : ForeignKey.Unbound enforced d.1.rows) : ∃ d', runSteps steps d = .ok d' := by
  induction steps generalizing d with
  | nil => exact ⟨d, rfl⟩
  | cons step steps ih =>
    obtain ⟨name, _ | ⟨t, p⟩⟩ := step
    · exact ih (d := (d.1, d.2 ++ [(name, 0)])) h
    · obtain ⟨out, hdelete, hout⟩ := h.delete t p
      cases hrun : d.1.delete t p with
      | error fk =>
        rw [Tables.delete] at hrun
        split at hrun
        · next hfk =>
          rw [hdelete] at hfk
          cases hfk
        · cases hrun
      | ok deleted =>
        have hrows := hdelete.symm.trans (Tables.delete_eq_ok hrun)
        rw [runSteps, DeletionStep.run]
        simp only [hrun]
        apply ih
        rw [← Except.ok.inj hrows]
        exact hout

theorem execute_unbound (hjob : jobOrganization w.db jobId = some org)
    (h : ForeignKey.Unbound enforced w.db.rows) :
    (executeDataDeletion env jobId w).1.status ≠ none := by
  obtain ⟨deleted, hdelete⟩ := runSteps_unbound (dependentSteps org
    (integrationIdsForOrg (setJob w.db jobId [("status", .str "running")]) org)
    (userIdsForOrg (setJob w.db jobId [("status", .str "running")]) org) ++ [organizationStep org])
    (d := (setJob w.db jobId [("status", .str "running")], []))
    (unbound_setJob h jobId _)
  rw [executeDataDeletion, hjob]
  simp only [deleteOrganization, hdelete]
  exact Option.some_ne_none _

theorem purge_fails :
    (purgeRedisForIntegrations env (integrationIdsForOrg w.db org) w.keys).2 = true ↔
      PurgeFails env w org := by
  rw [purgeRedisForIntegrations, purgeKeys_fails, PurgeFails]
  constructor
  · rintro ⟨pattern, hmem, hraises⟩
    obtain ⟨id, hid, hpattern⟩ := List.mem_flatMap.1 hmem
    exact ⟨id, hid, pattern, hpattern, hraises⟩
  · rintro ⟨id, hid, pattern, hpattern, hraises⟩
    exact ⟨pattern, List.mem_flatMap.2 ⟨id, hid, hpattern⟩, hraises⟩

theorem mem_purged (hquiet : ¬ PurgeFails env w org) {key : String} :
    key ∈ (purgeRedisForIntegrations env (integrationIdsForOrg w.db org) w.keys).1 ↔
      key ∈ w.keys ∧ ∀ id ∈ integrationIdsForOrg w.db org, ∀ pattern ∈ purgePatterns id,
        keyMatches pattern key = false := by
  have hnone : ∀ pattern ∈ (integrationIdsForOrg w.db org).flatMap purgePatterns,
      env.raises pattern = none := by
    intro pattern hmem
    obtain ⟨id, hid, hpattern⟩ := List.mem_flatMap.1 hmem
    rw [← Option.not_isSome_iff_eq_none]
    intro hraises
    exact hquiet ⟨id, hid, pattern, hpattern, hraises⟩
  rw [purgeRedisForIntegrations, mem_purgeKeys hnone]
  simp only [List.mem_flatMap, forall_exists_index, and_imp]
  constructor
  · rintro ⟨hkey, hkept⟩
    exact ⟨hkey, fun id hid pattern hpattern => hkept pattern id hid hpattern⟩
  · rintro ⟨hkey, hkept⟩
    exact ⟨hkey, fun pattern id hid hpattern => hkept id hid pattern hpattern⟩

theorem purge_leaves (hquiet : ¬ PurgeFails env w org) {n : Int}
    (hid : RowId.int n ∈ integrationIdsForOrg w.db org) {key : String}
    (hwrote : Wrote (.int n) key)
    (hkey : key ∈ (purgeRedisForIntegrations env (integrationIdsForOrg w.db org) w.keys).1) :
    key = tokenKey n := by
  have hkept := ((mem_purged hquiet).1 hkey).2 _ hid
  obtain ⟨m, hm, hfamily⟩ := hwrote
  cases hm
  obtain rfl | ⟨stream, rfl⟩ | ⟨messageId, rfl⟩ := hfamily
  · rfl
  · obtain ⟨pattern, hpattern, hmatch⟩ := hotKey_purged n stream
    exact absurd (hkept pattern hpattern) (hmatch ▸ Bool.noConfusion)
  · obtain ⟨pattern, hpattern, hmatch⟩ := dedupeKey_purged n messageId
    exact absurd (hkept pattern hpattern) (hmatch ▸ Bool.noConfusion)

theorem token_left (hquiet : ¬ PurgeFails env w org) {n : Int} (hkey : tokenKey n ∈ w.keys) :
    tokenKey n ∈ (purgeRedisForIntegrations env (integrationIdsForOrg w.db org) w.keys).1 :=
  (mem_purged hquiet).2 ⟨hkey, fun _ _ _ hpattern => tokenKey_kept hpattern⟩

theorem allErased_iff (hcascade : destinationForeignKey ∈ enforced)
    (hjob : jobOrganization w.db jobId = some org)
    (hcommits : (executeDataDeletion env jobId w).1.status ≠ none)
    (hquiet : ¬ PurgeFails env w org) :
    AllErased env org w (executeDataDeletion env jobId w).2 ↔ NothingMissed env w org := by
  obtain ⟨houtcomes, hkeys, -⟩ := execute_commits hcascade hjob hcommits
  constructor
  · intro h
    constructor
    · intro r hr herasable
      obtain ⟨o, ho, -⟩ := h.destinations r hr herasable
      rw [houtcomes] at ho
      cases ho
    · intro n hid hkey
      apply h.keys _ hid (tokenKey n)
      · rw [hkeys]
        exact token_left hquiet hkey
      · exact ⟨n, rfl, .inl rfl⟩
  · intro h
    constructor
    · intro r hr herasable
      exact absurd herasable (h.destinations r hr)
    · intro id hid key hkey hwrote
      rw [hkeys] at hkey
      have hn := hwrote
      obtain ⟨n, rfl, -⟩ := hn
      obtain rfl := purge_leaves hquiet hid hwrote hkey
      exact h.tokens n hid ((mem_purged hquiet).1 hkey).1

end Run

/-- A committed deletion that ends as completed has erased everything just where Redis fails or
there was nothing that the erasure misses. -/
theorem completed_means_erased_iff (env : DeletionEnv) (jobId : String)
    (w : DeletionWorld enforced) (org : RowId) (hcascade : destinationForeignKey ∈ enforced)
    (hjob : jobOrganization w.db jobId = some org)
    (hcommits : (executeDataDeletion env jobId w).1.status ≠ none) :
    CompletedMeansErased env jobId w org ↔ PurgeFails env w org ∨ NothingMissed env w org := by
  obtain ⟨-, -, hstatus⟩ := execute_commits hcascade hjob hcommits
  by_cases hfails : PurgeFails env w org
  · have hended : (executeDataDeletion env jobId w).1.status = some "partial" := by
      rw [hstatus, if_pos (purge_fails.2 hfails)]
    constructor
    · intro _
      exact .inl hfails
    · intro _
      refine ⟨fun hcompleted => ?_, fun _ => hended⟩
      rw [hended] at hcompleted
      exact absurd (Option.some.inj hcompleted) (by decide)
  · have hcompleted : (executeDataDeletion env jobId w).1.status = some "completed" := by
      rw [hstatus, if_neg (mt purge_fails.1 hfails)]
    have hall := allErased_iff hcascade hjob hcommits hfails
    constructor
    · intro h
      exact .inr (hall.1 (h.1 hcompleted))
    · intro h
      have herased := hall.2 (h.resolve_left hfails)
      exact ⟨fun _ => herased, fun hnot => absurd herased hnot⟩

end Completed

section Example

/-- The foreign keys without the one that blocks every deletion. -/
def committing : List (ForeignKey Table String) :=
  foreignKeys.filter (fun fk => decide (fk ≠ jobForeignKey))

def routedOrganization : List DbRow :=
  bareOrganization ++
    [⟨.integrations, .int 7, fun c => if c = "organization_id" then some (.int 1) else none, []⟩,
      ⟨.destinations, .text "own", fun c => if c = "organization_id" then some (.int 1) else none,
        [("kind", .str "elastic_bulk"), ("enabled", .bool true)]⟩,
      ⟨.destinations, .text "shared", fun _ => none,
        [("kind", .str "s3"), ("enabled", .bool true)]⟩]

def routedWorld : DeletionWorld committing where
  db := ⟨routedOrganization, ForeignKey.intact_of_all (by decide +kernel) (by decide +kernel)⟩
  keys := ["oauth:token:7", "dedupe:7:m"]

theorem routedWorld_job : jobOrganization routedWorld.db "job-1" = some (.int 1) := by
  decide +kernel

theorem routedWorld_commits :
    (executeDataDeletion calmEnv "job-1" routedWorld).1.status ≠ none := by
  apply execute_unbound routedWorld_job
  have hunbound : ∀ r ∈ routedWorld.db.rows, ∀ fk ∈ committing,
      fk.onDelete = .noAction ∨ fk.onDelete = .restrict → fk.target r = none := by decide +kernel
  exact hunbound

theorem routedWorld_status :
    (executeDataDeletion calmEnv "job-1" routedWorld).1.status = some "completed" := by
  obtain ⟨-, -, hstatus⟩ := execute_commits (by decide +kernel) routedWorld_job routedWorld_commits
  rw [hstatus, if_neg]
  decide +kernel

theorem routedWorld_iff :
    CompletedMeansErased calmEnv "job-1" routedWorld (.int 1) ↔
      PurgeFails calmEnv routedWorld (.int 1) ∨ NothingMissed calmEnv routedWorld (.int 1) :=
  completed_means_erased_iff calmEnv "job-1" routedWorld (.int 1) (by decide +kernel)
    routedWorld_job routedWorld_commits

/-- The deletion ends as completed, with the token and both destinations left out. -/
theorem routedWorld_missed :
    ¬ ∀ (env : DeletionEnv) (jobId : String) (w : DeletionWorld committing) (org : RowId),
      jobOrganization w.db jobId = some org →
        (executeDataDeletion env jobId w).1.status ≠ none →
          CompletedMeansErased env jobId w org := by
  intro h
  have hjob := routedWorld_job
  have hcommits := routedWorld_commits
  have herased := (h calmEnv "job-1" routedWorld (.int 1) hjob hcommits).1 routedWorld_status
  have hquiet : ¬ PurgeFails calmEnv routedWorld (.int 1) := by
    rintro ⟨id, -, pattern, -, hraises⟩
    cases hraises
  have hmissed := (allErased_iff (by decide +kernel) hjob hcommits hquiet).1 herased
  exact hmissed.tokens 7 (by decide +kernel) (by decide +kernel)

end Example

end CentralOps
