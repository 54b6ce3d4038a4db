import CentralOps.Lib.Fails
import CentralOps.Inflight.Compile

namespace CentralOps
set_option autoImplicit true

section Cache
variable (rt : MappingRuntime) (envelope : Json)

def Faithful (cache : PathCache) : Prop :=
  ∀ path v, cache.lookup path = some v → v = getPath envelope path

theorem Faithful.nil : Faithful envelope [] := fun _ _ h => nomatch h

variable {envelope} {cache : PathCache}

theorem Faithful.readPath_fst (hc : Faithful envelope cache) (path : List String) :
    (readPath envelope path cache).1 = getPath envelope path := by
  unfold readPath
  cases h : cache.lookup path with
  | none => rfl
  | some v => exact hc path v h

theorem Faithful.readPath_snd (hc : Faithful envelope cache) (path : List String) :
    Faithful envelope (readPath envelope path cache).2 := by
  unfold readPath
  cases h : cache.lookup path with
  | some v => exact hc
  | none =>
    intro other v hv
    rw [List.lookup_cons] at hv
    by_cases ho : other = path
    · subst ho
      rw [beq_self_eq_true] at hv
      exact (Option.some.inj hv).symm
    · rw [beq_false_of_ne ho] at hv
      exact hc other v hv

theorem Faithful.evalClausesCached (hc : Faithful envelope cache) (cs : List CompiledClause) :
    ∃ cache', Faithful envelope cache' ∧
      evalClausesCached rt envelope cs cache =
        (evalClauses rt envelope cs).map (fun b => (b, cache')) := by
  induction cs generalizing cache with
  | nil => exact ⟨cache, hc, rfl⟩
  | cons c cs ih =>
    obtain ⟨cache', hc', he⟩ := ih (hc.readPath_snd c.path)
    simp only [CentralOps.evalClausesCached, evalClauses, evalClause, hc.readPath_fst c.path, he]
    cases compareClause rt c.test (getPath envelope c.path) with
    | error e => exact ⟨cache', hc', rfl⟩
    | ok b =>
      cases b with
      | true => exact ⟨cache', hc', rfl⟩
      | false => exact ⟨_, hc.readPath_snd c.path, rfl⟩

theorem Faithful.evaluateCached (hc : Faithful envelope cache)
    (rules : List CompiledInflightRule) :
    evaluateCached rt envelope rules cache = evaluateInflight rt envelope rules := by
  induction rules generalizing cache with
  | nil => rfl
  | cons rule rules ih =>
    obtain ⟨cache', hc', he⟩ := hc.evalClausesCached rt rule.clauses
    simp only [CentralOps.evaluateCached, evaluateInflight, he]
    cases evalClauses rt envelope rule.clauses with
    | error e => rfl
    | ok b =>
      change (CentralOps.evaluateCached rt envelope rules cache' >>= _) = _
      rw [ih hc']
      rfl

end Cache

theorem evaluateRuleset_eq (rt : MappingRuntime) (envelope : Json) (ruleset : CompiledRuleSet) :
    evaluateRuleset rt envelope ruleset = evaluateInflight rt envelope ruleset.rules := by
  unfold evaluateRuleset
  cases ruleset.sharePaths with
  | false => rfl
  | true => exact (Faithful.nil envelope).evaluateCached rt ruleset.rules

section Raising
variable (rt : MappingRuntime)

/-- Python's `str` has no answer for the value: an integer with too many digits, or nesting
beyond the stack. -/
def NoText (v : Json) : Prop := ∃ e, documents.str rt () v = .error e

/-- Python's `==` descends beyond the stack. -/
def TooDeep (v w : Json) : Prop := ∃ e, documents.eq () rt.stackLimit v w = .error e

def Fatal (test : ClauseTest) (actual : Json) : Prop :=
  match test with
  | .hasValue _ => False
  | .compare _ _ => ∃ n, actual = .int n ∧ floatIntBound ≤ n.natAbs
  | .eq value | .ne value => actual ≠ .null ∧ TooDeep rt actual value
  | .contains value => actual ≠ .null ∧ (NoText rt value ∨ NoText rt actual)
  | .isIn (.tuple xs) | .nin (.tuple xs) =>
    actual ≠ .null ∧ ∃ e, documents.isIn () rt.stackLimit actual xs = .error e
  | .isIn (.frozenset _) | .nin (.frozenset _) => False

variable {rt}

theorem floatOfInt_none_iff (n : Int) : floatOfInt n = none ↔ floatIntBound ≤ n.natAbs := by
  unfold floatOfInt
  by_cases h : floatIntBound ≤ n.natAbs
  · rw [if_pos h]
    exact iff_of_true rfl h
  · rw [if_neg h]
    exact iff_of_false (fun hn => nomatch hn) h

theorem num_error_iff (v : Json) :
    (∃ e, num rt v = .error e) ↔ ∃ n, v = .int n ∧ floatIntBound ≤ n.natAbs := by
  cases v with
  | int n =>
    simp only [num, Json.int.injEq, exists_eq_left', ← floatOfInt_none_iff]
    cases floatOfInt n with
    | none => simp
    | some x => simp
  | _ => simp [num]

theorem allEqual_error {eq : α → β → Except PyError Bool} (as : List α) (bs : List β)
    (h : Objects.allEqual eq as bs = .error e) : ∃ a b, eq a b = .error e := by
  induction as generalizing bs with
  | nil => cases h
  | cons a as ih =>
    cases bs with
    | nil => cases h
    | cons b bs =>
      rw [Objects.allEqual] at h
      cases hab : eq a b with
      | error e' =>
        rw [hab] at h
        cases h
        exact ⟨a, b, hab⟩
      | ok r =>
        rw [hab] at h
        cases r with
        | true => exact ih bs h
        | false => cases h

section Errors
variable {σ ν : Type} {S : Objects σ ν} {s : σ}

theorem eqStep_error {inner : ν → ν → Except PyError Bool}
    (hinner : ∀ v w e, inner v w = .error e → e = .recursionError) (v w : ν)
    (h : S.eqStep inner s v w = .error e) : e = .recursionError := by
  unfold Objects.eqStep at h
  split at h
  · cases h
  · next xs ys _ _ =>
    by_cases hl : xs.length ≠ ys.length
    · rw [if_pos hl] at h
      cases h
    · rw [if_neg hl] at h
      obtain ⟨x, y, hxy⟩ := allEqual_error xs ys h
      by_cases hsame : S.same x y = true
      · simp [hsame] at hxy
      · exact hinner x y e (by simpa [hsame] using hxy)
  · next fs gs _ _ =>
    by_cases hl : fs.length ≠ gs.length
    · rw [if_pos hl] at h
      cases h
    · rw [if_neg hl] at h
      obtain ⟨p, q, hpq⟩ := allEqual_error fs gs h
      cases hg : gs.lookup p.1 with
      | none => simp [hg] at hpq
      | some y =>
        by_cases hsame : S.same p.2 y = true
        · simp [hg, hsame] at hpq
        · exact hinner p.2 y e (by simpa [hg, hsame] using hpq)
  · cases h

/-- `==` raises nothing but `RecursionError`. -/
theorem eq_error (fuel : Nat) (v w : ν) (h : S.eq s fuel v w = .error e) :
    e = .recursionError := by
  induction fuel generalizing v w e with
  | zero => exact eqStep_error (fun v w e h => (Except.error.inj h).symm) v w h
  | succ fuel ih => exact eqStep_error (fun v w e h => ih v w h) v w h

theorem isIn_error (fuel : Nat) (v : ν) (ws : List ν) (h : S.isIn s fuel v ws = .error e) :
    e = .recursionError := by
  induction ws with
  | nil => cases h
  | cons w ws ih =>
    rw [Objects.isIn] at h
    by_cases hsame : S.same v w = true
    · rw [if_pos hsame] at h
      cases h
    · rw [if_neg hsame] at h
      cases hvw : S.eq s fuel v w with
      | error e' =>
        rw [hvw] at h
        cases h
        exact eq_error fuel v w hvw
      | ok r =>
        rw [hvw] at h
        cases r with
        | true => cases h
        | false => exact ih h

theorem reprScalar_error (x : Scalar) (h : x.repr rt = .error e) : e = .valueError := by
  cases x with
  | int n =>
    rw [Scalar.repr] at h
    by_cases hn : n.natAbs < intStrBound
    · rw [if_pos hn] at h
      cases h
    · rw [if_neg hn] at h
      exact (Except.error.inj h).symm
  | _ => cases h

theorem reprStep_error {inner : List ν → ν → Except PyError String}
    (hinner : ∀ seen v e, inner seen v = .error e → e ≠ .typeError) (seen : List ν) (v : ν)
    (h : S.reprStep rt inner s seen v = .error e) : e ≠ .typeError := by
  unfold Objects.reprStep at h
  split at h
  · next x _ =>
    rw [reprScalar_error x h]
    intro hn
    cases hn
  · next xs _ =>
    by_cases hseen : seen.any (S.same v) = true
    · rw [if_pos hseen] at h
      cases h
    · rw [if_neg hseen] at h
      cases hparts : xs.mapM (inner (v :: seen)) with
      | ok parts =>
        rw [hparts] at h
        cases h
      | error e' =>
        rw [hparts] at h
        cases h
        obtain ⟨x, _, hx⟩ := Except.mapM_error_mem hparts
        exact hinner (v :: seen) x e hx
  · next fields _ =>
    by_cases hseen : seen.any (S.same v) = true
    · rw [if_pos hseen] at h
      cases h
    · rw [if_neg hseen] at h
      cases hparts : fields.mapM (fun p => do
          let part ← inner (v :: seen) p.2
          .ok (rt.reprStr p.1 ++ ": " ++ part)) with
      | ok parts =>
        rw [hparts] at h
        cases h
      | error e' =>
        rw [hparts] at h
        cases h
        obtain ⟨p, _, hp⟩ := Except.mapM_error_mem hparts
        cases hv : inner (v :: seen) p.2 with
        | ok part =>
          rw [hv] at hp
          cases hp
        | error e'' =>
          rw [hv] at hp
          cases hp
          exact hinner (v :: seen) p.2 e hv

theorem repr_error (fuel : Nat) (seen : List ν) (v : ν)
    (h : S.repr rt s fuel seen v = .error e) : e ≠ .typeError := by
  induction fuel generalizing seen v e with
  | zero =>
    apply reprStep_error (fun _ _ e' he => ?_) seen v h
    rw [← Except.error.inj he]
    exact fun hn => nomatch hn
  | succ fuel ih => exact reprStep_error (fun seen v _ he => ih seen v he) seen v h

/-- `str` raises no `TypeError`. -/
theorem str_error (v : ν) (h : S.str rt s v = .error e) : e ≠ .typeError := by
  unfold Objects.str at h
  split at h
  · cases h
  · exact repr_error rt.stackLimit [] v h

end Errors

theorem noMatch_error_iff (r : Except PyError Bool) :
    (∃ e, noMatch r = .error e) ↔ ∃ e, r = .error e ∧ e ≠ .typeError := by
  cases r with
  | ok b => simp [noMatch]
  | error e => cases e <;> simp [noMatch]

theorem map_error_iff (f : α → β) (r : Except PyError α) (e : PyError) :
    r.map f = .error e ↔ r = .error e := by
  cases r <;> simp [Except.map]

/-- What the handler of `compare_values` lets through. -/
theorem rawCompare_error_iff (test : ClauseTest) (actual : Json) :
    (∃ e, rawCompare rt test actual = .error e ∧ e ≠ .typeError) ↔
      match test with
      | .hasValue _ | .compare _ _ => False
      | .eq value | .ne value => TooDeep rt actual value
      | .contains value => NoText rt value ∨ NoText rt actual
      | .isIn (.tuple xs) | .nin (.tuple xs) =>
        ∃ e, documents.isIn () rt.stackLimit actual xs = .error e
      | .isIn (.frozenset _) | .nin (.frozenset _) => False := by
  have heq (value : Json) :
      (∃ e, documents.eq () rt.stackLimit actual value = .error e ∧ e ≠ .typeError) ↔
        TooDeep rt actual value := by
    apply exists_congr
    intro e
    apply and_iff_left_of_imp
    intro he
    rw [eq_error rt.stackLimit actual value he]
    exact fun hn => nomatch hn
  have hmem (value : Members) :
      (∃ e, value.has rt actual = .error e ∧ e ≠ .typeError) ↔
        match value with
        | .tuple xs => ∃ e, documents.isIn () rt.stackLimit actual xs = .error e
        | .frozenset _ => False := by
    cases value with
    | frozenset xs => cases actual <;> simp [Members.has]
    | tuple xs =>
      apply exists_congr
      intro e
      apply and_iff_left_of_imp
      intro he
      rw [isIn_error rt.stackLimit actual xs he]
      exact fun hn => nomatch hn
  cases test with
  | hasValue value => simp [rawCompare]
  | compare op value => simp [rawCompare]
  | eq value => exact heq value
  | ne value =>
    simp only [rawCompare, map_error_iff]
    exact heq value
  | isIn value =>
    refine (hmem value).trans ?_
    cases value <;> exact Iff.rfl
  | nin value =>
    simp only [rawCompare, map_error_iff]
    refine (hmem value).trans ?_
    cases value <;> exact Iff.rfl
  | contains value =>
    simp only [rawCompare, NoText]
    cases hv : documents.str rt () value with
    | error e => simpa [bind, Except.bind] using str_error value hv
    | ok needle =>
      cases ha : documents.str rt () actual with
      | error e => simpa [bind, Except.bind] using str_error actual ha
      | ok hay => simp [bind, Except.bind]

theorem compareClause_error_iff (test : ClauseTest) (actual : Json) :
    (∃ e, compareClause rt test actual = .error e) ↔ Fatal rt test actual := by
  have hraw (test : ClauseTest) (P : Prop)
      (h : (∃ e, rawCompare rt test actual = .error e ∧ e ≠ .typeError) ↔ P) :
      (∃ e, (if actual = .null then .ok test.isNegative
        else noMatch (rawCompare rt test actual)) = .error e) ↔ actual ≠ .null ∧ P := by
    by_cases hn : actual = .null
    · simp [hn]
    · rw [if_neg hn, noMatch_error_iff, h]
      exact (and_iff_right hn).symm
  cases test with
  | hasValue value => simp [compareClause, Fatal]
  | compare op value =>
    refine Iff.trans ?_ (@num_error_iff rt actual)
    simp only [compareClause]
    cases num rt actual with
    | error e => simp [bind, Except.bind]
    | ok x => cases x <;> simp [bind, Except.bind]
  | eq value => exact hraw (.eq value) _ (rawCompare_error_iff _ actual)
  | ne value => exact hraw (.ne value) _ (rawCompare_error_iff _ actual)
  | contains value => exact hraw (.contains value) _ (rawCompare_error_iff _ actual)
  | isIn value =>
    cases value with
    | tuple xs => exact hraw (.isIn (.tuple xs)) _ (rawCompare_error_iff _ actual)
    | frozenset xs =>
      refine (hraw (.isIn (.frozenset xs)) _ (rawCompare_error_iff _ actual)).trans ?_
      exact iff_of_false (fun h => h.2) id
  | nin value =>
    cases value with
    | tuple xs => exact hraw (.nin (.tuple xs)) _ (rawCompare_error_iff _ actual)
    | frozenset xs =>
      refine (hraw (.nin (.frozenset xs)) _ (rawCompare_error_iff _ actual)).trans ?_
      exact iff_of_false (fun h => h.2) id

end Raising

section Rules
variable (rt : MappingRuntime) (envelope : Json)

def clauseHolds (c : CompiledClause) : Bool :=
  match evalClause rt envelope c with
  | .ok b => b
  | .error _ => false

/-- All clauses of the rule hold, each evaluated alone. -/
def ruleHolds (rule : CompiledInflightRule) : Bool := rule.clauses.all (clauseHolds rt envelope)

/-- No clause meets a fatal value where the clauses before it hold. -/
def Survives : List CompiledClause → Prop
  | [] => True
  | c :: cs =>
    ¬ Fatal rt c.test (getPath envelope c.path) ∧
      (clauseHolds rt envelope c = true → Survives cs)

variable {rt envelope}

theorem evalClauses_ok_iff (cs : List CompiledClause) :
    evalClauses rt envelope cs = .ok (cs.all (clauseHolds rt envelope)) ↔
      Survives rt envelope cs := by
  induction cs with
  | nil => exact iff_of_true rfl trivial
  | cons c cs ih =>
    rw [Survives, ← ih, ← compareClause_error_iff, evalClauses, List.all_cons]
    change _ ↔ (¬ ∃ e, evalClause rt envelope c = .error e) ∧ _
    cases h : evalClause rt envelope c with
    | error e => simp [bind, Except.bind]
    | ok b =>
      have hc : clauseHolds rt envelope c = b := by rw [clauseHolds, h]
      rw [hc]
      cases b <;> simp [bind, Except.bind]

theorem evalClauses_ok (cs : List CompiledClause) (h : evalClauses rt envelope cs = .ok b) :
    b = cs.all (clauseHolds rt envelope) := by
  induction cs with
  | nil => exact (Except.ok.inj h).symm
  | cons c cs ih =>
    rw [evalClauses] at h
    cases hc : evalClause rt envelope c with
    | error e =>
      rw [hc] at h
      cases h
    | ok r =>
      have hr : clauseHolds rt envelope c = r := by rw [clauseHolds, hc]
      rw [hc] at h
      rw [List.all_cons, hr]
      cases r with
      | true => exact ih h
      | false => exact (Except.ok.inj h).symm

theorem evaluateInflight_ok_iff (rules : List CompiledInflightRule) :
    evaluateInflight rt envelope rules = .ok (rules.filter (ruleHolds rt envelope)) ↔
      ∀ rule ∈ rules, Survives rt envelope rule.clauses := by
  induction rules with
  | nil => simp [evaluateInflight]
  | cons rule rules ih =>
    rw [List.forall_mem_cons, ← ih, ← evalClauses_ok_iff, evaluateInflight, List.filter_cons]
    cases hr : evalClauses rt envelope rule.clauses with
    | error e => simp [bind, Except.bind]
    | ok b =>
      have hb : ruleHolds rt envelope rule = b := (evalClauses_ok rule.clauses hr).symm
      rw [hb, ← evalClauses_ok rule.clauses hr]
      cases evaluateInflight rt envelope rules with
      | error e => simp [bind, Except.bind]
      | ok matched => cases b <;> simp [bind, Except.bind]

end Rules

/-- The rule set answers with exactly the rules whose clauses all hold alone, just when no rule
reads a fatal value. -/
theorem ruleset_isolated_iff (rt : MappingRuntime) (envelope : Json) (ruleset : CompiledRuleSet) :
    evaluateRuleset rt envelope ruleset =
        .ok (ruleset.rules.filter (ruleHolds rt envelope)) ↔
      ∀ rule ∈ ruleset.rules, Survives rt envelope rule.clauses := by
  rw [evaluateRuleset_eq]
  exact evaluateInflight_ok_iff ruleset.rules

/-- A library that parses the two conditions below. -/
def ruleLibrary : MappingRuntime :=
  { MappingRuntime.ascii with
    loads := fun s =>
      if s = "[\x7b\"field\": \"raw.score\", \"op\": \"gt\", \"value\": 3\x7d]" then
        .ok (.list [.obj [("field", .str "raw.score"), ("op", .str "gt"), ("value", .int 3)]])
      else if s = "[\x7b\"field\": \"raw.user\", \"value\": \"root\"\x7d]" then
        .ok (.list [.obj [("field", .str "raw.user"), ("value", .str "root")]])
      else .error "Expecting value" }

def scoreRow : CorrelationRule where
  id := 1
  name := "score"
  whereJson := some "[\x7b\"field\": \"raw.score\", \"op\": \"gt\", \"value\": 3\x7d]"

def rootRow : CorrelationRule where
  id := 2
  name := "root"
  whereJson := some "[\x7b\"field\": \"raw.user\", \"value\": \"root\"\x7d]"

/-- An event whose score is an integer of 401 digits. -/
def hugeScore : Json :=
  .obj [("raw", .obj [("score", .int (10 ^ 400)), ("user", .str "root")])]

/-- The score silences the other rule of the cycle, which holds on the event. -/
theorem huge_score_silences_root :
    ∃ ruleset, loadRuleSet ruleLibrary {} [scoreRow, rootRow] = .ok ruleset ∧
      (ruleset.rules.filter (ruleHolds ruleLibrary hugeScore)).map (fun rule => rule.name) =
        ["root"] ∧
      evaluateRuleset ruleLibrary hugeScore ruleset = .error .overflowError := by
  refine ⟨⟨[⟨1, "score", 4, 3600, none, [⟨["raw", "score"], .compare .gt (.finite 3)⟩], false, none,
      1, 0, none, 0, "", false, 0⟩,
    ⟨2, "root", 4, 3600, none, [⟨["raw", "user"], .eq (.str "root")⟩], false, none,
      1, 0, none, 0, "", false, 0⟩], false⟩, ?_, ?_, ?_⟩
  · decide +kernel
  · decide +kernel
  · decide +kernel

end CentralOps
