import CentralOps.Inflight.Isolation

namespace CentralOps
set_option autoImplicit true

def clausePath (c : Obj) : List String :=
  match c.getN "field" with
  | .str fieldName => splitDots fieldName
  | _ => []

/-- `NEGATIVE_OPS`. -/
def Op.isNegative : Op → Bool
  | .ne | .nin => true
  | _ => false

/-- A written clause that has a negative operator, on a path without a value. -/
def Misses (envelope : Json) (c : Obj) : Prop :=
  (clauseOp c).isNegative = true ∧ getPath envelope (clausePath c) = .null

/-- A written `exists: false`. -/
def Waives (x : Obj) : Prop := clauseOp x = .hasValue ∧ (x.getN "value").truthy = false

/-- Some rule set that has the rule answers with it. -/
def Matches (rt : MappingRuntime) (envelope : Json) (rule : CompiledInflightRule) : Prop :=
  ∃ ruleset matched, evaluateRuleset rt envelope ruleset = .ok matched ∧ rule ∈ matched

def WrittenHolds (rt : MappingRuntime) (envelope : Json) (c : Obj) : Prop :=
  ∃ k, compileClause rt c = .ok k ∧ clauseHolds rt envelope k = true

section Clauses
variable {rt : MappingRuntime} {cfg : InflightSettings} {envelope : Json}

theorem asFloat_map_ok {f : PyFloat → ClauseTest} (h : (asFloat rt v).map f = .ok t) :
    ∃ x, t = f x := by
  cases hx : asFloat rt v with
  | error e =>
    rw [hx] at h
    cases h
  | ok x =>
    rw [hx] at h
    cases h
    exact ⟨x, rfl⟩

theorem compileTest_negative (h : compileTest rt op v = .ok t) : t.isNegative = op.isNegative := by
  cases op with
  | eq | ne | contains | hasValue =>
    cases h
    rfl
  | gt | gte | lt | lte =>
    obtain ⟨x, hx⟩ := asFloat_map_ok h
    rw [hx]
    rfl
  | isIn | nin =>
    cases v <;> cases h
    rfl
  | unknown => cases h

theorem compileTest_existence (h : compileTest rt op v = .ok t) :
    t.isExistence = true ↔ op = .hasValue := by
  cases op with
  | eq | ne | contains | hasValue =>
    cases h
    simp [ClauseTest.isExistence]
  | gt | gte | lt | lte =>
    obtain ⟨x, hx⟩ := asFloat_map_ok h
    rw [hx]
    simp [ClauseTest.isExistence]
  | isIn | nin =>
    cases v <;> cases h
    simp [ClauseTest.isExistence]
  | unknown => cases h

theorem compileClause_ok (h : compileClause rt c = .ok k) :
    k.path = clausePath c ∧ compileTest rt (clauseOp c) (c.getN "value") = .ok k.test := by
  unfold compileClause at h
  split at h
  · cases h
  · rename_i hop
    split at h
    · rename_i fieldName hfield
      split at h
      · cases h
      · obtain ⟨test, htest, hk⟩ := Except.bind_eq_ok h
        cases hk
        refine ⟨?_, htest⟩
        rw [clausePath, hfield]
    · cases h

/-- The clauses of a list are the written ones, and one `exists` for each unguarded path. -/
theorem compileClauses_ok (h : compileClauses rt cfg raw = .ok cs) :
    ∃ ks, List.Forall₂ (fun c k => compileClause rt c = .ok k) raw ks ∧
      cs = ks ++ (unguardedPaths ks).map (fun p => ⟨p, .hasValue true⟩) := by
  unfold compileClauses at h
  split at h
  · cases h
  · obtain ⟨ks, hks, hcs⟩ := Except.bind_eq_ok h
    exact ⟨ks, Except.mapM_ok_iff.1 hks, (Except.ok.inj hcs).symm⟩

theorem mem_unguardedPaths :
    p ∈ unguardedPaths ks ↔
      (∃ k ∈ ks, k.test.isNegative = true ∧ k.path = p) ∧
        ∀ k ∈ ks, k.test.isExistence = true → k.path ≠ p := by
  unfold unguardedPaths
  simp only [List.mem_insertionSort, List.mem_filter, List.mem_dedup, List.mem_map,
    decide_eq_true_eq, not_exists, not_and, and_assoc]

theorem hasValue_holds (p : List String) (b : Bool) :
    clauseHolds rt envelope ⟨p, .hasValue b⟩ = true ↔
      (getPath envelope p ≠ .null ↔ b = true) := by
  simp only [clauseHolds, evalClause, compareClause]
  cases b <;> simp

theorem clauseHolds_iff : clauseHolds rt envelope k = true ↔ evalClause rt envelope k = .ok true := by
  unfold clauseHolds
  cases evalClause rt envelope k <;> simp

theorem evalClauses_true (h : ∀ k ∈ cs, clauseHolds rt envelope k = true) :
    evalClauses rt envelope cs = .ok true := by
  induction cs with
  | nil => rfl
  | cons k cs ih =>
    obtain ⟨hk, hcs⟩ := List.forall_mem_cons.1 h
    rw [evalClauses, clauseHolds_iff.1 hk]
    exact ih hcs

theorem evaluateInflight_ok (rules : List CompiledInflightRule)
    (h : evaluateInflight rt envelope rules = .ok matched) :
    matched = rules.filter (ruleHolds rt envelope) := by
  induction rules generalizing matched with
  | nil => exact (Except.ok.inj h).symm
  | cons rule rules ih =>
    rw [evaluateInflight] at h
    obtain ⟨b, hb, h⟩ := Except.bind_eq_ok h
    obtain ⟨rest, hrest, h⟩ := Except.bind_eq_ok h
    have hrule : ruleHolds rt envelope rule = b := (evalClauses_ok rule.clauses hb).symm
    rw [List.filter_cons, hrule, ← ih hrest]
    exact (Except.ok.inj h).symm

theorem matches_iff (rule : CompiledInflightRule) :
    Matches rt envelope rule ↔ ∀ k ∈ rule.clauses, clauseHolds rt envelope k = true := by
  constructor
  · rintro ⟨ruleset, matched, h, hrule⟩
    rw [evaluateRuleset_eq] at h
    rw [evaluateInflight_ok ruleset.rules h] at hrule
    exact List.all_eq_true.1 (List.mem_filter.1 hrule).2
  · intro h
    refine ⟨⟨[rule], false⟩, [rule], ?_, List.mem_singleton_self rule⟩
    rw [evaluateRuleset_eq, evaluateInflight, evalClauses_true h]
    rfl

theorem written_hold_iff (h : List.Forall₂ (fun c k => compileClause rt c = .ok k) raw ks) :
    (∀ c ∈ raw, WrittenHolds rt envelope c) ↔ ∀ k ∈ ks, clauseHolds rt envelope k = true := by
  induction h with
  | nil => simp
  | cons hk _ ih =>
    rw [List.forall_mem_cons, List.forall_mem_cons, ih]
    apply and_congr_left
    intro _
    simp [WrittenHolds, hk]

theorem exists_compiled (h : List.Forall₂ (fun c k => compileClause rt c = .ok k) raw ks)
    (hk : k ∈ ks) : ∃ c ∈ raw, compileClause rt c = .ok k := by
  induction h with
  | nil => cases hk
  | cons hc _ ih =>
    rcases List.mem_cons.1 hk with rfl | hk
    · exact ⟨_, List.mem_cons_self, hc⟩
    · obtain ⟨c, hc, hck⟩ := ih hk
      exact ⟨c, List.mem_cons_of_mem _ hc, hck⟩

theorem exists_written (h : List.Forall₂ (fun c k => compileClause rt c = .ok k) raw ks)
    (hc : c ∈ raw) : ∃ k ∈ ks, compileClause rt c = .ok k := by
  induction h with
  | nil => cases hc
  | cons hk _ ih =>
    rcases List.mem_cons.1 hc with rfl | hc
    · exact ⟨_, List.mem_cons_self, hk⟩
    · obtain ⟨k, hk, hck⟩ := ih hc
      exact ⟨k, List.mem_cons_of_mem _ hk, hck⟩

/-- On a path without a value, an `exists` that holds asks for none. -/
theorem waives_of_holds (hc : compileClause rt c = .ok k) (hk : k.test.isExistence = true)
    (hnull : getPath envelope k.path = .null) (hholds : clauseHolds rt envelope k = true) :
    Waives c := by
  obtain ⟨_, htest⟩ := compileClause_ok hc
  have hop : clauseOp c = .hasValue := (compileTest_existence htest).1 hk
  refine ⟨hop, ?_⟩
  rw [hop] at htest
  have hk' : k = ⟨k.path, .hasValue (c.getN "value").truthy⟩ := by
    rw [Except.ok.inj htest]
  rw [hk', hasValue_holds] at hholds
  simpa [hnull] using hholds

end Clauses

/-- What lets an event without the field through: `exists: false` on each path that a negative
clause misses, and no written clause that fails. -/
structure LetsThrough (rt : MappingRuntime) (envelope : Json) (raw : List Obj) : Prop where
  waived : ∀ c ∈ raw, Misses envelope c → ∃ x ∈ raw, Waives x ∧ clausePath x = clausePath c
  hold : ∀ c ∈ raw, WrittenHolds rt envelope c

/-- The rule matches just when the written clauses hold and each negative path without a value has
its `exists: false`. -/
theorem matches_iff_letsThrough {rt : MappingRuntime} {cfg : InflightSettings}
    (h : compileClauses rt cfg raw = .ok rule.clauses) :
    Matches rt envelope rule ↔ LetsThrough rt envelope raw := by
  obtain ⟨ks, hks, hcs⟩ := compileClauses_ok h
  rw [matches_iff, hcs]
  constructor
  · intro hall
    have hwritten : ∀ k ∈ ks, clauseHolds rt envelope k = true := fun k hk =>
      hall k (List.mem_append_left _ hk)
    refine ⟨fun c hc hmiss => ?_, (written_hold_iff hks).2 hwritten⟩
    obtain ⟨k, hk, hck⟩ := exists_written hks hc
    obtain ⟨hpath, htest⟩ := compileClause_ok hck
    have hneg : k.test.isNegative = true := (compileTest_negative htest).trans hmiss.1
    have hguarded : ¬ ∀ x ∈ ks, x.test.isExistence = true → x.path ≠ k.path := by
      intro hnone
      have hinjected := hall ⟨k.path, .hasValue true⟩ (List.mem_append_right _
        (List.mem_map_of_mem (mem_unguardedPaths.2 ⟨⟨k, hk, hneg, rfl⟩, hnone⟩)))
      rw [hasValue_holds, hpath] at hinjected
      exact hinjected.2 rfl hmiss.2
    push Not at hguarded
    obtain ⟨x, hx, hexists, hsame⟩ := hguarded
    obtain ⟨d, hd, hdx⟩ := exists_compiled hks hx
    refine ⟨d, hd, waives_of_holds hdx hexists ?_ (hwritten x hx), ?_⟩
    · rw [hsame, hpath]
      exact hmiss.2
    · rw [← (compileClause_ok hdx).1, hsame, hpath]
  · intro hlet k hk
    rcases List.mem_append.1 hk with hk | hk
    · exact (written_hold_iff hks).1 hlet.hold k hk
    · obtain ⟨p, hp, rfl⟩ := List.mem_map.1 hk
      rw [hasValue_holds]
      refine ⟨fun _ => rfl, fun _ hnull => ?_⟩
      obtain ⟨⟨n, hn, hneg, rfl⟩, hnone⟩ := mem_unguardedPaths.1 hp
      obtain ⟨c, hc, hcn⟩ := exists_compiled hks hn
      obtain ⟨hpath, htest⟩ := compileClause_ok hcn
      have hmiss : Misses envelope c :=
        ⟨(compileTest_negative htest).symm.trans hneg, hpath ▸ hnull⟩
      obtain ⟨x, hx, hwaives, hsame⟩ := hlet.waived c hc hmiss
      obtain ⟨y, hy, hxy⟩ := exists_written hks hx
      obtain ⟨hypath, hytest⟩ := compileClause_ok hxy
      refine hnone y hy ((compileTest_existence hytest).2 hwaives.1) ?_
      rw [hypath, hpath, hsame]

/-- The rule of an accepted list is silent about the events that miss a negative field, just when
no such event is let through. -/
theorem negatives_fail_closed_iff (rt : MappingRuntime) (cfg : InflightSettings) (raw : List Obj)
    (rule : CompiledInflightRule) (h : compileClauses rt cfg raw = .ok rule.clauses)
    (envelope : Json) :
    ((∃ c ∈ raw, Misses envelope c) → ¬ Matches rt envelope rule) ↔
      ((∃ c ∈ raw, Misses envelope c) → ¬ LetsThrough rt envelope raw) := by
  rw [matches_iff_letsThrough h]

/-- `raw.user` is not `"backup"`. -/
def notBackup : Obj :=
  [("field", .str "raw.user"), ("op", .str "ne"), ("value", .str "backup")]

/-- `raw.user` does not exist. -/
def noUser : Obj := [("field", .str "raw.user"), ("op", .str "exists"), ("value", .bool false)]

/-- A rule with these clauses and nothing else of note. -/
def ruleOf (clauses : List CompiledClause) : CompiledInflightRule :=
  ⟨1, "user", 4, 3600, none, clauses, false, none, 1, 0, none, 0, "", false, 0⟩

/-- The test alone brings its own `exists`, and an event without a user is let through by neither
side. -/
theorem not_backup_fails_closed :
    ((∃ c ∈ [notBackup], Misses (.obj []) c) → ¬ Matches MappingRuntime.ascii (.obj [])
        (ruleOf [⟨["raw", "user"], .ne (.str "backup")⟩, ⟨["raw", "user"], .hasValue true⟩])) ↔
      ((∃ c ∈ [notBackup], Misses (.obj []) c) →
        ¬ LetsThrough MappingRuntime.ascii (.obj []) [notBackup]) :=
  negatives_fail_closed_iff MappingRuntime.ascii {} [notBackup] _ (by decide +kernel) (.obj [])

/-- With `exists: false` beside it no `exists` is injected, and the event without a user matches. -/
theorem waived_negative_matches :
    compileClauses MappingRuntime.ascii {} [notBackup, noUser] =
        .ok [⟨["raw", "user"], .ne (.str "backup")⟩, ⟨["raw", "user"], .hasValue false⟩] ∧
      Misses (.obj []) notBackup ∧
      Matches MappingRuntime.ascii (.obj [])
        (ruleOf [⟨["raw", "user"], .ne (.str "backup")⟩, ⟨["raw", "user"], .hasValue false⟩]) := by
  refine ⟨by decide +kernel, ⟨by decide +kernel, by decide +kernel⟩, ?_⟩
  rw [matches_iff]
  decide +kernel

end CentralOps
