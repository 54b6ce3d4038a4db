import CentralOps.Lib.Decimal
import CentralOps.Lib.Fails
import CentralOps.Inflight.Accumulator

namespace CentralOps
set_option autoImplicit true

/-- An event of the cycle that a rule matched, as the live loop hands it to `add`. -/
structure MatchedEvent where
  rule : CompiledInflightRule
  envelope : Obj
  integrationId : Option Int

section Collect
variable (rt : InflightRuntime) (cfg : InflightSettings) (org : Int)

/-- The token that `add` files the event under. -/
def MatchedEvent.token (m : MatchedEvent) : Option String :=
  match m.rule.groupByPath with
  | none => some "*"
  | some path =>
    match getPath (.obj m.envelope) path with
    | .null => none
    | v =>
      match documents.str rt.toMappingRuntime () v with
      | .error _ => none
      | .ok value => some (groupToken rt cfg value)

def MatchedEvent.key (m : MatchedEvent) : Option String :=
  (m.token rt cfg).map (inflightKey org m.rule)

/-- The accumulator of a cycle, whatever `add` raises on the way. -/
def collect (acc : InflightAccumulator) (ms : List MatchedEvent) : InflightAccumulator :=
  ms.foldl (fun acc m => (acc.add rt cfg m.rule m.envelope org m.integrationId).1) acc

/-- What `add` may do to the item of its key. -/
inductive FiledAt (rule : CompiledInflightRule) (token : String) :
    Option PendingItem → Option PendingItem → Prop
  | same : FiledAt rule token o o
  | hit : FiledAt rule token (some item) (some item.hit)
  | leg : rule.legIndex = some index →
      FiledAt rule token (some item) (some (item.hit.addLeg index pointer))
  | new : item.rule = rule → item.token = token → (∀ p ∈ item.legs, rule.legIndex = some p.1) →
      FiledAt rule token none (some item)

/-- What `add` may do to the pending items. -/
structure Filed (rule : CompiledInflightRule) (key token : String) (before after : Pending) :
    Prop where
  here : FiledAt rule token (before.get? key) (after.get? key)
  others : ∀ j, j ≠ key → after.get? j = before.get? j

theorem Filed.same : Filed rule key token pending pending := ⟨.same, fun _ _ => rfl⟩

theorem Filed.set {before pending : Pending}
    (h : FiledAt rule token (before.get? key) (some item))
    (hothers : ∀ j, j ≠ key → pending.get? j = before.get? j) :
    Filed rule key token before (pending.set key item) where
  here := by
    rw [Dict.get?_set_self]
    exact h
  others j hj := (pending.get?_set_ne hj item).trans (hothers j hj)

variable {rt cfg org}

namespace InflightAccumulator

theorem addAgain_filed {acc : InflightAccumulator} {item : PendingItem}
    (h : acc.pending.get? key = some item) (rule : CompiledInflightRule) (token : String)
    (pointer : Except PyError Obj) :
    Filed rule key token acc.pending (addAgain acc rule key item pointer).1.pending := by
  have hhit : Filed rule key token acc.pending (acc.pending.set key item.hit) := by
    apply Filed.set
    · rw [h]
      exact .hit
    · exact fun _ _ => rfl
  rw [addAgain]
  cases hleg : rule.legIndex with
  | none => exact hhit
  | some index =>
    by_cases hseen : (item.legs.lookup index).isSome = true
    · simp only [hseen, if_true]
      exact hhit
    · simp only [hseen, if_false, Bool.false_eq_true]
      cases pointer with
      | error e => exact hhit
      | ok p =>
        apply Filed.set
        · rw [h]
          exact .leg hleg
        · exact fun j hj => acc.pending.get?_set_ne hj item.hit

theorem addNew_filed {acc : InflightAccumulator} (h : acc.pending.get? key = none)
    (rule : CompiledInflightRule) (token : String) (integrationId : Option Int)
    (pointer : Except PyError Obj) :
    Filed rule key token acc.pending
      (addNew cfg acc rule key token integrationId pointer).1.pending := by
  rw [addNew]
  by_cases hcap : rule.maxDedupKeys.getD cfg.maxDedupKeysPerRulePerCycle ≤
      (acc.keysPerRule.get? rule.ruleId).getD 0
  · simp only [hcap, if_true]
    exact .same
  · simp only [hcap, if_false]
    cases pointer with
    | error e => exact .same
    | ok p =>
      apply Filed.set
      · rw [h]
        apply FiledAt.new
        · rfl
        · rfl
        · intro leg hleg
          obtain ⟨index, hindex, rfl⟩ := List.mem_map.1 hleg
          exact Option.mem_toList.1 hindex
      · exact fun _ _ => rfl

theorem addToken_filed {acc : InflightAccumulator} (hpending : acc.pending = before)
    (rule : CompiledInflightRule) (envelope : Obj) (integrationId : Option Int) (token : String)
    (groupValue : Option String) :
    Filed rule (inflightKey org rule token) token before
      (addToken rt cfg acc rule envelope org integrationId token groupValue).1.pending := by
  subst hpending
  rw [addToken]
  cases h : acc.pending.get? (inflightKey org rule token) with
  | some item => exact addAgain_filed h rule token _
  | none => exact addNew_filed h rule token integrationId _

/-- `add` files the event under its token, if under any. -/
theorem add_filed (acc : InflightAccumulator) (m : MatchedEvent) :
    (acc.add rt cfg m.rule m.envelope org m.integrationId).1.pending = acc.pending ∨
      ∃ token, m.token rt cfg = some token ∧
        Filed m.rule (inflightKey org m.rule token) token acc.pending
          (acc.add rt cfg m.rule m.envelope org m.integrationId).1.pending := by
  simp only [add, MatchedEvent.token]
  cases m.rule.groupByPath with
  | none =>
    apply Or.inr
    refine ⟨"*", rfl, ?_⟩
    apply addToken_filed
    rfl
  | some path =>
    simp only []
    cases getPath (.obj m.envelope) path with
    | null => exact .inl rfl
    | _ =>
      simp only []
      generalize documents.str rt.toMappingRuntime () _ = text
      cases text with
      | error e => exact .inl rfl
      | ok value =>
        apply Or.inr
        refine ⟨groupToken rt cfg value, rfl, ?_⟩
        apply addToken_filed
        split <;> rfl

end InflightAccumulator

structure Backed (rt : InflightRuntime) (cfg : InflightSettings) (org : Int)
    (ms : List MatchedEvent) (key : String) (item : PendingItem) : Prop where
  first : ∃ m ∈ ms, m.rule = item.rule ∧ m.token rt cfg = some item.token ∧
    m.key rt cfg org = some key
  legs : ∀ leg ∈ item.legs, ∃ m ∈ ms, m.rule.legIndex = some leg.1 ∧ m.key rt cfg org = some key

theorem Backed.mono (h : Backed rt cfg org ms key item)
    {ms' : List MatchedEvent} (hsub : ms ⊆ ms') :
    Backed rt cfg org ms' key item where
  first := by
    obtain ⟨m, hm, hrest⟩ := h.first
    exact ⟨m, hsub hm, hrest⟩
  legs leg hleg := by
    obtain ⟨m, hm, hrest⟩ := h.legs leg hleg
    exact ⟨m, hsub hm, hrest⟩

theorem FiledAt.backed {m : MatchedEvent} (h : FiledAt m.rule token before (some item))
    (htoken : m.token rt cfg = some token) (hkey : m.key rt cfg org = some key) (hm : m ∈ ms)
    (hbefore : ∀ old, before = some old → Backed rt cfg org ms key old) :
    Backed rt cfg org ms key item := by
  generalize hafter : some item = after at h
  cases h with
  | same => exact hbefore item hafter.symm
  | @hit old =>
    cases hafter
    have hold := hbefore old rfl
    exact ⟨hold.first, hold.legs⟩
  | @leg index old pointer hindex =>
    cases hafter
    have hold := hbefore old rfl
    refine ⟨hold.first, fun leg hleg => ?_⟩
    obtain hin | hnew := List.mem_append.1 hleg
    · exact hold.legs leg hin
    · rw [List.mem_singleton.1 hnew]
      exact ⟨m, hm, hindex, hkey⟩
  | @new item' hrule htok hlegs =>
    cases hafter
    refine ⟨⟨m, hm, hrule.symm, ?_, hkey⟩, fun leg hleg => ⟨m, hm, hlegs leg hleg, hkey⟩⟩
    rw [htoken, htok]

theorem collect_backed {acc : InflightAccumulator} {ms seen : List MatchedEvent}
    (hacc : ∀ key item, acc.pending.get? key = some item → Backed rt cfg org seen key item)
    (h : (collect rt cfg org acc ms).pending.get? key = some item) :
    Backed rt cfg org (seen ++ ms) key item := by
  induction ms generalizing acc seen with
  | nil => exact (hacc key item h).mono (List.subset_append_left seen [])
  | cons m ms ih =>
    have hstep : ∀ key item,
        (acc.add rt cfg m.rule m.envelope org m.integrationId).1.pending.get? key = some item →
        Backed rt cfg org (seen ++ [m]) key item := by
      intro key item hget
      have hsub : seen ⊆ seen ++ [m] := List.subset_append_left seen [m]
      obtain hsame | ⟨token, htoken, hfiled⟩ := acc.add_filed m
      · rw [hsame] at hget
        exact (hacc key item hget).mono hsub
      · by_cases hk : key = inflightKey org m.rule token
        · subst hk
          have hhere := hfiled.here
          rw [hget] at hhere
          have hkey : m.key rt cfg org = some (inflightKey org m.rule token) := by
            rw [MatchedEvent.key, htoken, Option.map_some]
          apply hhere.backed htoken hkey (List.mem_append_right seen (List.mem_singleton_self m))
          exact fun old hold => (hacc _ old hold).mono hsub
        · rw [hfiled.others key hk] at hget
          exact (hacc key item hget).mono hsub
    have hrest := ih hstep h
    rwa [List.append_assoc] at hrest

end Collect

/-! The legs that compilation makes, and the key that they share. -/

structure LegForm (rule : CompiledInflightRule) (index : Nat) : Prop where
  index : index < rule.legsTotal
  window : 0 < rule.windowSeconds
  single : rule.minCount = 1
  presence : rule.absence = false

section LegForm
variable {rt : MappingRuntime} {cfg : InflightSettings} {row : CorrelationRule}

theorem compileLeg_built (h : compileLeg rt cfg row total index leg = .ok rule) :
    ∃ joinPath clauses label, rule =
      { ruleFrame row (some joinPath) clauses with
        windowSeconds := columnOr 0 row.windowSeconds, legIndex := some index
        legsTotal := total, legLabel := label } := by
  rw [compileLeg] at h
  cases hwhere : leg.getN "where" with
  | list xs =>
    simp only [hwhere] at h
    obtain ⟨clauses, -, h⟩ := Except.bind_eq_ok h
    cases hpath : leg.getN "join_path" with
    | str s =>
      simp only [hpath] at h
      obtain ⟨joinPath, -, h⟩ := Except.bind_eq_ok h
      by_cases hroot : (!inEnvelope joinPath) = true
      · rw [if_pos hroot] at h
        cases h
      · rw [if_neg hroot] at h
        split at h
        · obtain ⟨label, -, h⟩ := Except.bind_eq_ok h
          cases h
          exact ⟨joinPath, clauses ++ streamClause leg, label, rfl⟩
        · cases h
          exact ⟨joinPath, clauses ++ streamClause leg, _, rfl⟩
    | _ =>
      simp only [hpath] at h
      cases h
  | _ =>
    simp only [hwhere] at h
    cases h

theorem compileLeg_form (h : compileLeg rt cfg row total index leg = .ok rule)
    (hwindow : 0 < columnOr 0 row.windowSeconds) (hindex : index < total) :
    rule.ruleId = row.id ∧ rule.legIndex = some index ∧ rule.legsTotal = total ∧
      LegForm rule index := by
  obtain ⟨joinPath, clauses, label, rfl⟩ := compileLeg_built h
  exact ⟨rfl, rfl, rfl, hindex, hwindow, rfl, rfl⟩

theorem compileSequence_form (h : compileSequence rt cfg row = .ok rules) (hr : rule ∈ rules) :
    ∃ index, rule.ruleId = row.id ∧ rule.legIndex = some index ∧
      rule.legsTotal = rules.length ∧ LegForm rule index := by
  rw [compileSequence] at h
  obtain ⟨legs, -, h⟩ := Except.bind_eq_ok h
  by_cases hpos : columnOr 0 row.windowSeconds ≤ 0
  · rw [if_pos hpos] at h
    cases h
  · by_cases hcap : cfg.maxWindowSeconds < columnOr 0 row.windowSeconds
    · rw [if_neg hpos, if_pos hcap] at h
      cases h
    · rw [if_neg hpos, if_neg hcap] at h
      have hall := Except.mapM_ok_iff.1 h
      have hlength : legs.length = rules.length := by
        rw [← hall.length_eq, List.length_zipIdx]
      obtain ⟨i, hi, rfl⟩ := List.getElem_of_mem hr
      have hi' : i < legs.zipIdx.length := by rwa [hall.length_eq]
      have hleg := hall.get hi' hi
      simp only [List.get_eq_getElem, List.getElem_zipIdx, Nat.zero_add] at hleg
      obtain ⟨hid, hindex, htotal, hform⟩ := compileLeg_form hleg (not_le.1 hpos)
        (hlength ▸ hi)
      exact ⟨i, hid, hindex, htotal.trans hlength, hform⟩

theorem compileAbsence_form (h : compileAbsence rt cfg row = .ok rule) :
    rule.ruleId = row.id ∧ rule.legIndex = none ∧ rule.absence = true ∧
      absenceMinWindowSeconds ≤ rule.windowSeconds ∧ rule.windowSeconds ≤ rule.forgetSeconds := by
  rw [compileAbsence] at h
  obtain ⟨raw, -, h⟩ := Except.bind_eq_ok h
  obtain ⟨clauses, -, h⟩ := Except.bind_eq_ok h
  simp only [] at h
  by_cases hmin : columnOr 0 row.windowSeconds < absenceMinWindowSeconds
  · simp only [hmin, if_true] at h
    split at h
    · cases h
    · split at h <;> cases h
  · by_cases hforget : forgetSecondsFor row (columnOr 0 row.windowSeconds) <
        columnOr 0 row.windowSeconds ∨
      cfg.absenceMaxForgetSeconds < forgetSecondsFor row (columnOr 0 row.windowSeconds)
    · simp only [hmin, hforget, if_true, if_false] at h
      split at h
      · cases h
      · split at h
        · cases h
        · split at h <;> cases h
    · simp only [hmin, hforget, if_false] at h
      split at h
      · cases h
      · split at h
        · cases h
        · split at h
          · cases h
          · cases h
            exact ⟨rfl, rfl, rfl, not_lt.1 hmin, not_lt.1 (fun hlt => hforget (.inl hlt))⟩

theorem compileClassic_form (h : compileClassic rt cfg row = .ok rule) :
    rule.ruleId = row.id ∧ rule.legIndex = none ∧ rule.absence = false := by
  rw [compileClassic] at h
  obtain ⟨raw, -, h⟩ := Except.bind_eq_ok h
  obtain ⟨clauses, -, h⟩ := Except.bind_eq_ok h
  simp only [] at h
  split at h
  · cases h
  · split at h
    · split at h
      · cases h
      · split at h
        · cases h
        · cases h
          exact ⟨rfl, rfl, rfl⟩
    · cases h
      exact ⟨rfl, rfl, rfl⟩

/-- The rules of a row carry its id; its legs, if any, are as many as each says. -/
theorem compileRow_form (h : compileRow rt cfg row = .ok rules) (hr : rule ∈ rules) :
    rule.ruleId = row.id ∧ ∀ index, rule.legIndex = some index →
      LegForm rule index ∧ rule.legsTotal = rules.length := by
  rw [compileRow] at h
  split at h
  · obtain ⟨i, hid, hindex, htotal, hform⟩ := compileSequence_form h hr
    refine ⟨hid, fun index hi => ?_⟩
    rw [hindex] at hi
    cases hi
    exact ⟨hform, htotal⟩
  · split at h
    · cases hc : compileAbsence rt cfg row with
      | error e =>
        rw [hc] at h
        cases h
      | ok only =>
        rw [hc] at h
        cases h
        rw [List.mem_singleton.1 hr]
        obtain ⟨hid, hnone, -⟩ := compileAbsence_form hc
        exact ⟨hid, fun index hi => nomatch hnone.symm.trans hi⟩
    · cases hc : compileClassic rt cfg row with
      | error e =>
        rw [hc] at h
        cases h
      | ok only =>
        rw [hc] at h
        cases h
        rw [List.mem_singleton.1 hr]
        obtain ⟨hid, hnone, -⟩ := compileClassic_form hc
        exact ⟨hid, fun index hi => nomatch hnone.symm.trans hi⟩

theorem loadRules_mem {rows : List CorrelationRule} (h : loadRules rt cfg rows = .ok rules)
    (hr : rule ∈ rules) :
    ∃ row ∈ rows, ∃ own, compileRow rt cfg row = .ok own ∧ rule ∈ own := by
  induction rows generalizing rules with
  | nil =>
    cases h
    cases hr
  | cons row rows ih =>
    have hrest : ∀ rest, loadRules rt cfg rows = .ok rest → rule ∈ rest →
        ∃ row' ∈ row :: rows, ∃ own, compileRow rt cfg row' = .ok own ∧ rule ∈ own := by
      intro rest hrows hin
      obtain ⟨row', hrow, own, hown⟩ := ih hrows hin
      exact ⟨row', List.mem_cons_of_mem row hrow, own, hown⟩
    rw [loadRules] at h
    cases hc : compileRow rt cfg row with
    | ok own =>
      rw [hc] at h
      cases hrows : loadRules rt cfg rows with
      | error e =>
        rw [hrows] at h
        cases h
      | ok rest =>
        rw [hrows] at h
        cases h
        obtain hown | hin := List.mem_append.1 hr
        · exact ⟨row, List.mem_cons_self, own, hc, hown⟩
        · exact hrest rest hrows hin
    | error stop =>
      rw [hc] at h
      cases stop with
      | rejected reason => exact hrest rules h hr
      | raised e => cases h

theorem loadRules_total {rows : List CorrelationRule} (h : loadRules rt cfg rows = .ok rules)
    (hids : (rows.map (fun row => row.id)).Nodup) (hr : rule ∈ rules) (hr' : rule' ∈ rules)
    (hid : rule.ruleId = rule'.ruleId) (hi : rule.legIndex = some i)
    (hi' : rule'.legIndex = some j) : rule.legsTotal = rule'.legsTotal := by
  obtain ⟨row, hrow, own, hown, hin⟩ := loadRules_mem h hr
  obtain ⟨row', hrow', own', hown', hin'⟩ := loadRules_mem h hr'
  obtain ⟨hrowid, hform⟩ := compileRow_form hown hin
  obtain ⟨hrowid', hform'⟩ := compileRow_form hown' hin'
  have hsame : row = row' :=
    List.inj_on_of_nodup_map hids hrow hrow' (hrowid.symm.trans (hid.trans hrowid'))
  subst hsame
  rw [hown] at hown'
  cases hown'
  exact (hform i hi).2.trans (hform' j hi').2.symm

theorem loadRules_form {rows : List CorrelationRule} (h : loadRules rt cfg rows = .ok rules)
    (hr : rule ∈ rules) (hi : rule.legIndex = some i) : LegForm rule i := by
  obtain ⟨row, -, own, hown, hin⟩ := loadRules_mem h hr
  exact ((compileRow_form hown hin).2 i hi).1

end LegForm

theorem inflightKey_toList (rule : CompiledInflightRule) (token : String) :
    ∃ rest, (inflightKey org rule token).toList =
      ("inflight:" ++ toString org ++ ":").toList ++ (rule.ruleId.repr.toList ++ ':' :: rest) := by
  rw [inflightKey]
  by_cases hleg : rule.legIndex.isSome = true
  · refine ⟨"seq:".toList ++ token.toList, ?_⟩
    simp [hleg]
  · refine ⟨token.toList, ?_⟩
    simp [hleg]

theorem inflightKey_ruleId {rule rule' : CompiledInflightRule}
    (h : inflightKey org rule token = inflightKey org rule' token') :
    rule.ruleId = rule'.ruleId := by
  obtain ⟨rest, hkey⟩ := inflightKey_toList rule token
  obtain ⟨rest', hkey'⟩ := inflightKey_toList rule' token'
  have hlists := hkey.symm.trans ((congrArg String.toList h).trans hkey')
  have htail := congrArg (List.takeWhile (fun c => c ≠ ':')) (List.append_cancel_left hlists)
  have hcut : ∀ (n : Int) (r : List Char),
      (n.repr.toList ++ ':' :: r).takeWhile (fun c => c ≠ ':') = n.repr.toList := by
    intro n r
    rw [List.takeWhile_append_of_pos, List.takeWhile_cons_of_neg (by simp), List.append_nil]
    intro c hc
    exact decide_eq_true (fun heq => Decimal.colon_notMem_repr n (heq ▸ hc))
  rw [hcut, hcut] at htail
  exact Decimal.intRepr_injective (String.toList_inj.1 htail)

end CentralOps
