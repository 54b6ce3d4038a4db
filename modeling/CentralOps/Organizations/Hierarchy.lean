import CentralOps.Lib.Placement

namespace CentralOps
set_option autoImplicit true

structure OrganizationRow where
  id : Int
  partnerIntegrationId : Option Int
  parentOrganizationId : Option Int
  rootId : Option Int
  depth : Option Int
  kind : Option String
  deriving DecidableEq

structure OwnedIntegration where
  id : Int
  organizationId : Int
  kind : String
  deriving DecidableEq

/-- The two tables, with their keys. -/
structure TenantDb where
  organizations : List OrganizationRow
  integrations : List OwnedIntegration
  keys : (organizations.map OrganizationRow.id).Nodup
  owned : ∀ integ ∈ integrations, integ.organizationId ∈ organizations.map OrganizationRow.id

namespace TenantDb

def orgIds (db : TenantDb) : List Int := db.organizations.map OrganizationRow.id

def getOrganization (db : TenantDb) (id : Int) : Option OrganizationRow :=
  db.organizations.find? (·.id == id)

def getIntegration (db : TenantDb) (id : Int) : Option OwnedIntegration :=
  db.integrations.find? (·.id == id)

theorem map_rewritten (orgs : List OrganizationRow) {f : OrganizationRow → OrganizationRow}
    (hid : ∀ org, (f org).id = org.id) :
    (orgs.map f).map OrganizationRow.id = orgs.map OrganizationRow.id := by
  rw [List.map_map]
  exact List.map_congr_left fun org _ => hid org

def rewrite (db : TenantDb) (f : OrganizationRow → OrganizationRow)
    (hid : ∀ org, (f org).id = org.id) : TenantDb where
  organizations := db.organizations.map f
  integrations := db.integrations
  keys := by
    rw [map_rewritten _ hid]
    exact db.keys
  owned := by
    rw [map_rewritten _ hid]
    exact db.owned

end TenantDb

def resolveParentId (db : TenantDb) (org : OrganizationRow) : Option Int :=
  match org.partnerIntegrationId with
  | none => none
  | some pii =>
    if pii = 0 then none
    else match db.getIntegration pii with
      | none => none
      | some integ =>
        if integ.organizationId = 0 then none
        else if integ.organizationId = org.id then none
        else some integ.organizationId

/-- What the Enterprise edition registers: it writes the tree of one organization. -/
abbrev HierarchyMaterializer := TenantDb → OrganizationRow → Option Int → TenantDb

def OrganizationRow.flat (orgId : Int) (org : OrganizationRow) : OrganizationRow :=
  if org.id = orgId then
    { org with parentOrganizationId := none, rootId := some orgId, depth := some 0 }
  else org

theorem OrganizationRow.flat_id (orgId : Int) (org : OrganizationRow) :
    (org.flat orgId).id = org.id := by
  unfold OrganizationRow.flat
  split <;> rfl

def materializeNode (materializer : Option HierarchyMaterializer) (db : TenantDb) (orgId : Int)
    (parentId : Option Int) : TenantDb :=
  match db.getOrganization orgId with
  | none => db
  | some org =>
    match materializer with
    | some write => write db org parentId
    | none => db.rewrite (OrganizationRow.flat orgId) (OrganizationRow.flat_id orgId)

/-- A backfill under way: the database, the set `done`, and the calls of `materialize_node` so
far. -/
structure BackfillState where
  db : TenantDb
  done : List Int
  calls : List (Int × Option Int)

section Backfill
variable (materializer : Option HierarchyMaterializer) (parentOf : Int → Option Int)

/-- `materialize_node(session, o.id, pid)` and `done.add(o.id)`. -/
def BackfillState.materialize (st : BackfillState) (orgId : Int) (parentId : Option Int) :
    BackfillState where
  db := materializeNode materializer st.db orgId parentId
  done := orgId :: st.done
  calls := st.calls ++ [(orgId, parentId)]

/-- The body of the loop over the organizations, with the flag `progress`. -/
def backfillStep (acc : Bool × BackfillState) (orgId : Int) : Bool × BackfillState :=
  if orgId ∈ acc.2.done then acc
  else match parentOf orgId with
    | none => (true, acc.2.materialize materializer orgId none)
    | some pid =>
      if pid ∈ acc.2.done then (true, acc.2.materialize materializer orgId (some pid)) else acc

/-- `while progress`; `none` is a loop that has not ended yet. -/
def backfillLoop (orgIds : List Int) : Nat → BackfillState → Option BackfillState
  | 0, _ => none
  | fuel + 1, st =>
    match orgIds.foldl (backfillStep materializer parentOf) (false, st) with
    | (true, st') => backfillLoop orgIds fuel st'
    | (false, st') => some st'

/-- A cycle or a dangling parent: the organization becomes a root. -/
def backfillRest (st : BackfillState) (orgId : Int) : BackfillState :=
  if orgId ∈ st.done then st else st.materialize materializer orgId none

end Backfill

/-- The organizations that own an integration of kind `partner`. -/
def resellerIds (db : TenantDb) : List Int :=
  (db.integrations.filter (·.kind == "partner")).map OwnedIntegration.organizationId

def OrganizationRow.markKind (resellers : List Int) (org : OrganizationRow) : OrganizationRow :=
  { org with
    kind :=
      if org.id ∈ resellers then some "reseller"
      else match org.kind with
        | none => some "customer"
        | some kind => if kind = "" then some "customer" else some kind }

theorem OrganizationRow.markKind_id (resellers : List Int) (org : OrganizationRow) :
    (org.markKind resellers).id = org.id := rfl

/-- `parent_of[o.id]` -/
def parentOf (db : TenantDb) (orgId : Int) : Option Int :=
  (db.getOrganization orgId).bind (resolveParentId db)

def backfillHierarchy (materializer : Option HierarchyMaterializer) (fuel : Nat) (db : TenantDb) :
    Option (Nat × BackfillState) :=
  match db.orgIds with
  | [] => some (0, ⟨db, [], []⟩)
  | orgIds =>
    (backfillLoop materializer (parentOf db) orgIds fuel ⟨db, [], []⟩).map fun st =>
      let st := orgIds.foldl (backfillRest materializer) st
      let resellers := resellerIds db
      (orgIds.length,
        { st with
          db := st.db.rewrite (OrganizationRow.markKind resellers)
            (OrganizationRow.markKind_id resellers) })

section Simulation
open Placement
variable {materializer : Option HierarchyMaterializer} {needs : Int → Option Int}
  {st : BackfillState} {done : List (Int × Option Int)}

structure BackfillState.Tracks (st : BackfillState) (done : List (Int × Option Int)) : Prop where
  calls : st.calls = done
  mem_done : ∀ a, a ∈ st.done ↔ a ∈ placed done

theorem BackfillState.Tracks.materialize (h : st.Tracks done) (a : Int) (p : Option Int) :
    (st.materialize materializer a p).Tracks (done ++ [(a, p)]) where
  calls := congrArg (· ++ [(a, p)]) h.calls
  mem_done := fun b => by
    rw [placed_snoc, List.mem_append, List.mem_singleton, ← h.mem_done, or_comm]
    exact List.mem_cons

variable (materializer) in
theorem backfillStep_tracks (h : st.Tracks done) (flag : Bool) (a : Int) :
    (backfillStep materializer needs (flag, st) a).2.Tracks (Placement.place needs done a) ∧
      ((backfillStep materializer needs (flag, st) a).1 = true ↔
        flag = true ∨ (Placement.place needs done a).length ≠ done.length) := by
  rw [backfillStep, Placement.place]
  by_cases ha : a ∈ st.done
  · rw [if_pos ha, if_pos ((h.mem_done a).1 ha)]
    exact ⟨h, by simp⟩
  · rw [if_neg ha, if_neg (fun hd => ha ((h.mem_done a).2 hd))]
    cases needs a with
    | none => exact ⟨h.materialize a none, by simp⟩
    | some p =>
      by_cases hp : p ∈ st.done
      · simp only [if_pos hp, if_pos ((h.mem_done p).1 hp)]
        exact ⟨h.materialize a (some p), by simp⟩
      · simp only [if_neg hp, if_neg (fun hd => hp ((h.mem_done p).2 hd))]
        exact ⟨h, by simp⟩

variable (materializer) in
theorem foldl_backfillStep (as : List Int) (flag : Bool) (h : st.Tracks done) :
    (as.foldl (backfillStep materializer needs) (flag, st)).2.Tracks (sweep needs as done) ∧
      ((as.foldl (backfillStep materializer needs) (flag, st)).1 = true ↔
        flag = true ∨ (sweep needs as done).length ≠ done.length) := by
  induction as generalizing flag st done with
  | nil => exact ⟨h, by simp [sweep]⟩
  | cons a as ih =>
    obtain ⟨htracks, hflag⟩ := backfillStep_tracks materializer h flag a
    obtain ⟨hrest, hmore⟩ := ih (backfillStep materializer needs (flag, st) a).1 htracks
    refine ⟨hrest, hmore.trans ?_⟩
    have hfirst := length_le_place needs done a
    have hlater := length_le_sweep needs as (Placement.place needs done a)
    rw [hflag, or_assoc]
    change _ ∨ _ ∨ (sweep needs as (Placement.place needs done a)).length ≠ _ ↔
      _ ∨ (sweep needs as (Placement.place needs done a)).length ≠ _
    exact or_congr_right (by omega)

variable (materializer) in
theorem backfillLoop_tracks {final : List (Int × Option Int)} (as : List Int) (fuel : Nat)
    (h : st.Tracks done) (hrun : saturate needs as fuel done = some final) :
    ∃ st', backfillLoop materializer needs as fuel st = some st' ∧ st'.Tracks final := by
  induction fuel generalizing st done with
  | zero => cases hrun
  | succ fuel ih =>
    obtain ⟨htracks, hflag⟩ := foldl_backfillStep materializer as false h
    rw [backfillLoop]
    rw [saturate] at hrun
    generalize as.foldl (backfillStep materializer needs) (false, st) = acc at htracks hflag
    obtain ⟨progress, st'⟩ := acc
    cases progress with
    | true =>
      have hmore : (sweep needs as done).length ≠ done.length := by simpa using hflag
      rw [if_neg hmore] at hrun
      exact ih htracks hrun
    | false =>
      have hstop : (sweep needs as done).length = done.length := by simpa using hflag
      rw [if_pos hstop] at hrun
      cases hrun
      exact ⟨st', rfl, htracks⟩

theorem backfillLoop_le {as : List Int} {fuel more : Nat} (hle : fuel ≤ more) {st' : BackfillState}
    (h : backfillLoop materializer needs as fuel st = some st') :
    backfillLoop materializer needs as more st = some st' := by
  induction fuel generalizing st more with
  | zero => cases h
  | succ fuel ih =>
    obtain ⟨more, rfl⟩ := Nat.exists_eq_succ_of_ne_zero (Nat.ne_zero_of_lt hle)
    rw [backfillLoop] at h ⊢
    split at h
    · exact ih (Nat.le_of_succ_le_succ hle) h
    · exact h

theorem foldl_backfillRest (as : List Int) (h : st.Tracks done) :
    (as.foldl (backfillRest materializer) st).Tracks (finish as done) := by
  induction as generalizing st done with
  | nil => exact h
  | cons a as ih =>
    apply ih
    rw [backfillRest, leftOver]
    by_cases ha : a ∈ st.done
    · rw [if_pos ha, if_pos ((h.mem_done a).1 ha)]
      exact h
    · rw [if_neg ha, if_neg (fun hd => ha ((h.mem_done a).2 hd))]
      exact h.materialize a none

end Simulation

/-- What the parents are derived from. -/
def TenantDb.links (db : TenantDb) : List (Int × Option Int) × List OwnedIntegration :=
  (db.organizations.map fun org => (org.id, org.partnerIntegrationId), db.integrations)

theorem resolveParentId_congr {db db' : TenantDb} {org org' : OrganizationRow}
    (hintegrations : db'.links.2 = db.links.2)
    (hlink : (org'.id, org'.partnerIntegrationId) = (org.id, org.partnerIntegrationId)) :
    resolveParentId db' org' = resolveParentId db org := by
  change db'.integrations = db.integrations at hintegrations
  obtain ⟨hid, hpartner⟩ := Prod.mk.inj hlink
  unfold resolveParentId TenantDb.getIntegration
  rw [hintegrations, hid, hpartner]

theorem parentOf_eq_some {db : TenantDb} {a p : Int} :
    parentOf db a = some p ↔
      ∃ org ∈ db.organizations, org.id = a ∧ resolveParentId db org = some p := by
  rw [parentOf, Option.bind_eq_some_iff]
  constructor
  · rintro ⟨org, hget, hparent⟩
    exact ⟨org, List.mem_of_find?_eq_some hget, by simpa using List.find?_some hget, hparent⟩
  · rintro ⟨org, horg, rfl, hparent⟩
    refine ⟨org, ?_, hparent⟩
    cases hget : db.getOrganization org.id with
    | none => exact absurd (List.find?_eq_none.1 hget org horg) (by simp)
    | some org' =>
      have hid : org'.id = org.id := by simpa using List.find?_some hget
      rw [List.inj_on_of_nodup_map db.keys (List.mem_of_find?_eq_some hget) horg hid]

theorem parentOf_of_links {db db' : TenantDb} (horgs : db'.links.1 ⊆ db.links.1)
    (hintegrations : db'.links.2 = db.links.2) {a p : Int} (h : parentOf db' a = some p) :
    parentOf db a = some p := by
  obtain ⟨org', horg', hid, hparent⟩ := parentOf_eq_some.1 h
  obtain ⟨org, horg, hlink⟩ := List.mem_map.1 (horgs (List.mem_map_of_mem horg'))
  refine parentOf_eq_some.2 ⟨org, horg, (Prod.mk.inj hlink).1.trans hid, ?_⟩
  rw [← resolveParentId_congr hintegrations hlink.symm]
  exact hparent

theorem parentOf_congr {db db' : TenantDb} (horgs : db'.links.1.Perm db.links.1)
    (hintegrations : db'.links.2 = db.links.2) : parentOf db' = parentOf db := by
  funext a
  refine Option.ext fun p => ⟨?_, ?_⟩
  · exact parentOf_of_links horgs.subset hintegrations
  · exact parentOf_of_links horgs.symm.subset hintegrations.symm

theorem parentOf_mem {db : TenantDb} {a p : Int} (h : parentOf db a = some p) : p ∈ db.orgIds := by
  obtain ⟨org, -, -, hparent⟩ := parentOf_eq_some.1 h
  unfold resolveParentId at hparent
  split at hparent
  · cases hparent
  · split at hparent
    · cases hparent
    · split at hparent
      · cases hparent
      · rename_i hfind
        split at hparent
        · cases hparent
        · split at hparent
          · cases hparent
          · cases hparent
            exact db.owned _ (List.mem_of_find?_eq_some hfind)

section Links
variable {materializer : Option HierarchyMaterializer}

/-- What is registered writes the tree, and nothing that a parent is derived from. -/
def WritesTreeOnly (materializer : Option HierarchyMaterializer) : Prop :=
  ∀ write, materializer = some write → ∀ db org parentId, (write db org parentId).links = db.links

theorem links_rewrite (db : TenantDb) {f : OrganizationRow → OrganizationRow}
    {hid : ∀ org, (f org).id = org.id}
    (hpartner : ∀ org, (f org).partnerIntegrationId = org.partnerIntegrationId) :
    (db.rewrite f hid).links = db.links := by
  simp [TenantDb.links, TenantDb.rewrite, hid, hpartner]

theorem materializeNode_links (h : WritesTreeOnly materializer) (db : TenantDb) (orgId : Int)
    (parentId : Option Int) : (materializeNode materializer db orgId parentId).links = db.links := by
  unfold materializeNode
  split
  · rfl
  · split
    · exact h _ rfl _ _ _
    · apply links_rewrite
      intro org
      unfold OrganizationRow.flat
      split <;> rfl

theorem foldl_backfillRest_links (h : WritesTreeOnly materializer) (as : List Int)
    (st : BackfillState) : (as.foldl (backfillRest materializer) st).db.links = st.db.links := by
  induction as generalizing st with
  | nil => rfl
  | cons a as ih =>
    refine (ih _).trans ?_
    unfold backfillRest
    split
    · rfl
    · exact materializeNode_links h _ _ _

theorem backfillStep_links (h : WritesTreeOnly materializer) (needs : Int → Option Int)
    (acc : Bool × BackfillState) (a : Int) :
    (backfillStep materializer needs acc a).2.db.links = acc.2.db.links := by
  unfold backfillStep
  split
  · rfl
  · split
    · exact materializeNode_links h _ _ _
    · split
      · exact materializeNode_links h _ _ _
      · rfl

theorem foldl_backfillStep_links (h : WritesTreeOnly materializer) (needs : Int → Option Int)
    (as : List Int) (acc : Bool × BackfillState) :
    (as.foldl (backfillStep materializer needs) acc).2.db.links = acc.2.db.links := by
  induction as generalizing acc with
  | nil => rfl
  | cons a as ih => exact (ih _).trans (backfillStep_links h needs acc a)

theorem backfillLoop_links (h : WritesTreeOnly materializer) (needs : Int → Option Int)
    (as : List Int) (fuel : Nat) (st : BackfillState) {st' : BackfillState}
    (hrun : backfillLoop materializer needs as fuel st = some st') : st'.db.links = st.db.links := by
  induction fuel generalizing st with
  | zero => cases hrun
  | succ fuel ih =>
    have hsweep := foldl_backfillStep_links h needs as (false, st)
    rw [backfillLoop] at hrun
    split at hrun
    · rename_i hfold
      rw [hfold] at hsweep
      exact (ih _ hrun).trans hsweep
    · rename_i hfold
      rw [hfold] at hsweep
      cases hrun
      exact hsweep

end Links

section Backfilled
open Placement
variable {materializer : Option HierarchyMaterializer}

theorem backfillHierarchy_spec (h : WritesTreeOnly materializer) (db : TenantDb) :
    ∃ st done, Swept (parentOf db) db.orgIds done ∧ Saturated (parentOf db) db.orgIds done ∧
      st.calls = finish db.orgIds done ∧ st.db.links = db.links ∧
      ∀ fuel, db.orgIds.length < fuel →
        backfillHierarchy materializer fuel db = some (db.orgIds.length, st) := by
  obtain ⟨done, hswept, hsat, hends⟩ := saturate_ends (swept_nil (parentOf db) db.orgIds)
  rw [List.length_nil, Nat.sub_zero] at hends
  cases horgs : db.orgIds with
  | nil =>
    rw [horgs] at hswept hsat
    have hnone : done = [] := List.eq_nil_of_length_eq_zero (Nat.le_zero.1 hswept.length_le)
    refine ⟨⟨db, [], []⟩, done, hswept, hsat, hnone.symm, rfl, fun fuel _ => ?_⟩
    rw [backfillHierarchy, horgs]
    rfl
  | cons a as =>
    rw [horgs] at hswept hsat hends
    have hstart : BackfillState.Tracks ⟨db, [], []⟩ [] := ⟨rfl, fun a => Iff.rfl⟩
    obtain ⟨st, hloop, htracks⟩ := backfillLoop_tracks materializer (a :: as) _
      hstart (hends _ (Nat.lt_succ_self _))
    have hlinks := backfillLoop_links h _ _ _ _ hloop
    refine ⟨{ (a :: as).foldl (backfillRest materializer) st with
        db := ((a :: as).foldl (backfillRest materializer) st).db.rewrite
          (OrganizationRow.markKind (resellerIds db))
          (OrganizationRow.markKind_id (resellerIds db)) }, done, hswept, hsat, ?_, ?_, ?_⟩
    · exact (foldl_backfillRest (a :: as) htracks).calls
    · refine (@links_rewrite _ _ (OrganizationRow.markKind_id _) fun _ => rfl).trans ?_
      exact (foldl_backfillRest_links h _ _).trans hlinks
    · intro fuel hfuel
      rw [backfillHierarchy, horgs]
      simp only [backfillLoop_le (Nat.succ_le_of_lt hfuel) hloop, Option.map_some]

/-- The backfill ends, whatever the parents are. It materializes every organization once, after its
parent and with no cycle, an organization whose chain of parents ends with the parent derived for
it; and a later backfill, over the rows in any order, gives the same parents. -/
theorem backfill_builds_forest (h : WritesTreeOnly materializer) (db : TenantDb) :
    ∃ st : BackfillState,
      (∀ fuel, db.orgIds.length < fuel →
        backfillHierarchy materializer fuel db = some (db.orgIds.length, st)) ∧
      (st.calls.map Prod.fst).Perm db.orgIds ∧
      (∀ before a p after, st.calls = before ++ (a, some p) :: after →
        p ∈ before.map Prod.fst) ∧
      (∀ a, ¬ Relation.TransGen (fun a p => (a, some p) ∈ st.calls) a a) ∧
      (∀ a ∈ db.orgIds, Grounded (parentOf db) a → (a, parentOf db a) ∈ st.calls) ∧
      ∀ db' : TenantDb, db'.links.1.Perm st.db.links.1 → db'.links.2 = st.db.links.2 →
        ∀ fuel, db'.orgIds.length < fuel → ∃ st', backfillHierarchy materializer fuel db' =
          some (db'.orgIds.length, st') ∧ ∀ call, call ∈ st'.calls ↔ call ∈ st.calls := by
  have hinside : ∀ db : TenantDb, ∀ a ∈ db.orgIds, ∀ p, parentOf db a = some p → p ∈ db.orgIds :=
    fun _ _ _ _ => parentOf_mem
  have hids : ∀ db : TenantDb, db.orgIds = db.links.1.map Prod.fst := fun db => by
    simp [TenantDb.orgIds, TenantDb.links]
  obtain ⟨st, done, hswept, hsat, hcalls, hlinks, hrun⟩ := backfillHierarchy_spec h db
  obtain ⟨hlayered, hplaced, -⟩ := finish_spec db.orgIds hswept.layered
  have hmem := finish_mem hswept hsat (hinside db)
  rw [← hcalls] at hlayered hplaced hmem
  refine ⟨st, hrun, ?_, fun _ _ _ _ => hlayered.before, hlayered.acyclic, ?_, ?_⟩
  · refine (List.perm_ext_iff_of_nodup hlayered.nodup db.keys).2 fun a => (hplaced a).trans ?_
    exact ⟨fun ha => ha.elim (fun ha => hswept.inside ha) id, .inr⟩
  · exact fun a ha hg => (hmem _).2 ⟨ha, .inl ⟨hg, rfl⟩⟩
  · intro db' hperm hintegrations fuel hfuel
    obtain ⟨st', done', hswept', hsat', hcalls', -, hrun'⟩ := backfillHierarchy_spec h db'
    refine ⟨st', hrun' fuel hfuel, fun call => ?_⟩
    rw [hlinks] at hperm hintegrations
    have hparents := parentOf_congr hperm hintegrations
    have horgs : ∀ a, a ∈ db'.orgIds ↔ a ∈ db.orgIds := fun a => by
      rw [hids, hids]
      exact (hperm.map _).mem_iff
    rw [hcalls', finish_mem hswept' hsat' (hinside db'), hmem, hparents, horgs]

end Backfilled

/-- Two organizations that are each other's parents, one below them, and one on top. -/
def cyclicTenants : TenantDb where
  organizations :=
    [⟨1, some 12, none, none, none, none⟩, ⟨2, some 11, none, none, none, none⟩,
      ⟨3, some 12, none, none, none, none⟩, ⟨4, none, none, none, none, none⟩]
  integrations := [⟨11, 1, "partner"⟩, ⟨12, 2, "partner"⟩]
  keys := by decide
  owned := by decide

/-- A registered materializer that writes the parent it is given. -/
def writesParent : HierarchyMaterializer := fun db org parentId =>
  db.rewrite
    (fun row => if row.id = org.id then { row with parentOrganizationId := parentId } else row)
    fun row => by split <;> rfl

theorem cyclicTenants_forest :
    WritesTreeOnly (some writesParent) ∧ ∃ st, backfillHierarchy (some writesParent) 5 cyclicTenants =
      some (4, st) ∧ (st.calls.map Prod.fst).Perm cyclicTenants.orgIds := by
  have hwrites : WritesTreeOnly (some writesParent) := by
    intro write hwrite db org parentId
    cases hwrite
    apply links_rewrite
    intro row
    split <;> rfl
  obtain ⟨st, hrun, hperm, -⟩ := backfill_builds_forest hwrites cyclicTenants
  exact ⟨hwrites, st, hrun 5 (by decide), hperm⟩

end CentralOps
