import CentralOps.Lib.Words
import CentralOps.Inflight.Collect

namespace CentralOps
set_option autoImplicit true

/-- A call of `add`, in the organisation it is made for. -/
structure AddCall extends MatchedEvent where
  organizationId : Int

/-- What an entry of a rule stands for: an organisation and a group value, none for a rule without
a group path. -/
abbrev GroupSlot := Int × Option String

section Slots
variable (rt : InflightRuntime) (cfg : InflightSettings)

def MatchedEvent.group (m : MatchedEvent) : Option (Option String) :=
  match m.rule.groupByPath with
  | none => some none
  | some path =>
    match getPath (.obj m.envelope) path with
    | .null => none
    | v => (documents.str rt.toMappingRuntime () v).toOption.map some

def MatchedEvent.unresolved (m : MatchedEvent) : Bool :=
  match m.rule.groupByPath with
  | none => false
  | some path => decide (getPath (.obj m.envelope) path = .null)

def AddCall.slot (c : AddCall) : Option GroupSlot := (c.group rt).map (fun g => (c.organizationId, g))

def tokenOf : Option String → String
  | none => "*"
  | some value => groupToken rt cfg value

def slotKey (sequence : Bool) (ruleId : Int) (s : GroupSlot) : String :=
  "inflight:" ++ toString s.1 ++ ":" ++ toString ruleId ++ (if sequence then ":seq:" else ":") ++
    tokenOf rt cfg s.2

end Slots

section Injective
variable {rt : InflightRuntime} {cfg : InflightSettings}

/-- A cut token is longer than one that is not cut, and among cut ones the digest tells. -/
theorem groupToken_injective (hdigest : Function.Injective rt.groupValueDigest) :
    Function.Injective (groupToken rt cfg) := by
  intro v w h
  have hcut : ∀ v : String, cfg.maxGroupValueLen < v.length →
      cfg.maxGroupValueLen < (groupToken rt cfg v).length := by
    intro v hv
    rw [groupToken, if_neg (not_le.2 hv), String.length_append, String.length_append,
      String.length_ofList, List.length_take, String.length_toList, Nat.min_eq_left hv.le]
    have hsep : ("~" : String).length = 1 := rfl
    omega
  have hwhole : ∀ v : String, v.length ≤ cfg.maxGroupValueLen → groupToken rt cfg v = v :=
    fun v hv => if_pos hv
  by_cases hv : v.length ≤ cfg.maxGroupValueLen
  · by_cases hw : w.length ≤ cfg.maxGroupValueLen
    · rw [hwhole v hv, hwhole w hw] at h
      exact h
    · have hlong := hcut w (not_le.1 hw)
      rw [← h, hwhole v hv] at hlong
      exact absurd hlong (not_lt.2 hv)
  · by_cases hw : w.length ≤ cfg.maxGroupValueLen
    · have hlong := hcut v (not_le.1 hv)
      rw [h, hwhole w hw] at hlong
      exact absurd hlong (not_lt.2 hw)
    · rw [groupToken, groupToken, if_neg hv, if_neg hw] at h
      have hlists := congrArg String.toList h
      simp only [String.toList_append, String.toList_ofList, List.append_assoc] at hlists
      have hlength : (v.toList.take cfg.maxGroupValueLen).length =
          (w.toList.take cfg.maxGroupValueLen).length := by
        rw [List.length_take, List.length_take, String.length_toList, String.length_toList,
          Nat.min_eq_left (not_le.1 hv).le, Nat.min_eq_left (not_le.1 hw).le]
      have hrest := List.append_cancel_left (List.append_inj hlists hlength).2
      exact hdigest (String.toList_injective hrest)

/-- A key tells its rule and its slot, as long as rules are told apart by their kind. -/
theorem slotKey_injective (hdigest : Function.Injective rt.groupValueDigest)
    {sequence grouped : Int → Bool} {r r' : Int} {s s' : GroupSlot}
    (hs : s.2.isSome = grouped r) (hs' : s'.2.isSome = grouped r')
    (h : slotKey rt cfg (sequence r) r s = slotKey rt cfg (sequence r') r' s') :
    r = r' ∧ s = s' := by
  have hl := congrArg String.toList h
  have hcolon : (":" : String).toList = [':'] := rfl
  simp only [slotKey, String.toList_append, List.append_assoc, hcolon, List.singleton_append] at hl
  obtain ⟨horg, hrest⟩ := Words.cut_first (Decimal.colon_notMem_repr _)
    (Decimal.colon_notMem_repr _) (List.append_cancel_left hl)
  have horg' : s.1 = s'.1 := Decimal.intRepr_injective (String.toList_injective horg)
  have hseparator : ∀ b : Bool, ∃ tail, (if b then ":seq:" else ":" : String).toList = ':' :: tail := by
    intro b
    cases b with
    | true => exact ⟨"seq:".toList, rfl⟩
    | false => exact ⟨[], rfl⟩
  have hid : r = r' := by
    obtain ⟨tail, htail⟩ := hseparator (sequence r)
    obtain ⟨tail', htail'⟩ := hseparator (sequence r')
    rw [htail, htail', List.cons_append, List.cons_append] at hrest
    obtain ⟨hrule, -⟩ := Words.cut_first (Decimal.colon_notMem_repr _)
      (Decimal.colon_notMem_repr _) hrest
    exact Decimal.intRepr_injective (String.toList_injective hrule)
  subst hid
  have htoken : tokenOf rt cfg s.2 = tokenOf rt cfg s'.2 :=
    String.toList_injective (List.append_cancel_left (List.append_cancel_left hrest))
  have hgroup : s.2 = s'.2 := by
    have hboth := hs.trans hs'.symm
    cases hv : s.2 with
    | none =>
      rw [hv] at hboth
      cases hw : s'.2 with
      | none => rfl
      | some w =>
        rw [hw] at hboth
        cases hboth
    | some v =>
      rw [hv] at hboth htoken
      cases hw : s'.2 with
      | none =>
        rw [hw] at hboth
        cases hboth
      | some w =>
        rw [hw] at htoken
        exact congrArg some (groupToken_injective hdigest htoken)
  exact ⟨rfl, Prod.ext horg' hgroup⟩

end Injective

/-- What all compiled rules with one id have in common. -/
structure RuleBook where
  sequence : Int → Bool
  grouped : Int → Bool
  keyCap : Int → Int

structure RuleBook.Lists (book : RuleBook) (cfg : InflightSettings)
    (rule : CompiledInflightRule) : Prop where
  sequence : rule.legIndex.isSome = book.sequence rule.ruleId
  grouped : rule.groupByPath.isSome = book.grouped rule.ruleId
  keyCap : rule.maxDedupKeys.getD cfg.maxDedupKeysPerRulePerCycle = book.keyCap rule.ruleId

section Book
variable {rt : MappingRuntime} {cfg : InflightSettings} {row : CorrelationRule}

end Book

end CentralOps
