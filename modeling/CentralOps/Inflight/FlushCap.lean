import Mathlib.Algebra.BigOperators.Group.Finset.Basic
import Mathlib.Algebra.Order.BigOperators.Group.Finset
import CentralOps.Lib.RoundRobin
import CentralOps.Inflight.Fates

namespace CentralOps
set_option autoImplicit true

open RoundRobin

namespace InflightAccumulator

/-- While there is room, a pass keeps one key of each rule. -/
theorem capRound_eq (cap n : Nat) (gs : List (List String)) {kept : List String}
    (h : kept.length < cap) :
    capRound cap n gs kept = kept ++ (layer n gs).take (cap - kept.length) := by
  induction gs generalizing kept with
  | nil => simp [capRound, layer]
  | cons g gs ih =>
    rw [capRound, layer_cons]
    cases hg : g[n]? with
    | none => exact ih h
    | some key =>
      dsimp only
      by_cases hfull : cap ≤ kept.length + 1
      · have hone : cap - kept.length = 1 := by omega
        rw [if_pos hfull, hone]
        rfl
      · have hroom : (kept ++ [key]).length < cap := by
          rw [List.length_append, List.length_singleton]
          omega
        have hrest : cap - kept.length = (cap - (kept ++ [key]).length) + 1 := by
          rw [List.length_append, List.length_singleton]
          omega
        rw [if_neg hfull, ih hroom, hrest, List.append_assoc]
        rfl

theorem capRounds_succ (cap : Nat) (gs : List (List String)) (fuel n : Nat) (kept : List String) :
    capRounds cap gs (fuel + 1) n kept =
      if cap ≤ kept.length then kept
      else if (capRound cap n gs kept).length = kept.length then kept
      else capRounds cap gs fuel (n + 1) (capRound cap n gs kept) := rfl

theorem capRounds_full {cap : Nat} {kept : List String} (h : cap ≤ kept.length)
    (gs : List (List String)) (fuel n : Nat) : capRounds cap gs fuel n kept = kept := by
  cases fuel with
  | zero => rfl
  | succ fuel => rw [capRounds_succ, if_pos h]

theorem length_lt_capRound {cap n : Nat} {gs : List (List String)} {kept : List String}
    (hroom : ¬ cap ≤ kept.length) (h : ¬ (capRound cap n gs kept).length = kept.length) :
    kept.length < (capRound cap n gs kept).length := by
  rw [capRound_eq cap n gs (Nat.lt_of_not_le hroom), List.length_append] at h ⊢
  omega

theorem capRounds_enough (cap : Nat) (gs : List (List String)) {fuel fuel' n : Nat}
    {kept : List String} (h : cap - kept.length ≤ fuel) (h' : cap - kept.length ≤ fuel') :
    capRounds cap gs fuel n kept = capRounds cap gs fuel' n kept := by
  induction fuel generalizing fuel' n kept with
  | zero => rw [capRounds_full (by omega), capRounds_full (by omega)]
  | succ fuel ih =>
    by_cases hroom : cap ≤ kept.length
    · rw [capRounds_full hroom, capRounds_full hroom]
    · cases fuel' with
      | zero => omega
      | succ fuel' =>
        rw [capRounds_succ, capRounds_succ, if_neg hroom, if_neg hroom]
        by_cases hstuck : (capRound cap n gs kept).length = kept.length
        · rw [if_pos hstuck, if_pos hstuck]
        · have hgrown := length_lt_capRound hroom hstuck
          rw [if_neg hstuck, if_neg hstuck]
          exact ih (by omega) (by omega)

/-- The loop keeps whole rounds and a part of the next, until the cap is reached or every rule has
run out of keys. -/
theorem capRounds_dealt (cap : Nat) (gs : List (List String)) (fuel n : Nat)
    (hfuel : cap - (layers n gs).length ≤ fuel) (hle : (layers n gs).length ≤ cap) :
    ∃ N j, capRounds cap gs fuel n (layers n gs) = layers N gs ++ (layer N gs).take j ∧
      ((layers N gs ++ (layer N gs).take j).length = cap ∨
        layer N gs = [] ∧ (layers N gs ++ (layer N gs).take j).length ≤ cap) := by
  induction fuel generalizing n with
  | zero =>
    refine ⟨n, 0, ?_, .inl ?_⟩
    · rw [List.take_zero, List.append_nil]
      rfl
    · rw [List.take_zero, List.append_nil]
      omega
  | succ fuel ih =>
    by_cases hfull : cap ≤ (layers n gs).length
    · refine ⟨n, 0, ?_, .inl ?_⟩
      · rw [capRounds_full hfull, List.take_zero, List.append_nil]
      · rw [List.take_zero, List.append_nil]
        exact Nat.le_antisymm hle hfull
    · have hround := capRound_eq cap n gs (Nat.lt_of_not_le hfull)
      rw [capRounds_succ, if_neg hfull]
      by_cases hstuck : (capRound cap n gs (layers n gs)).length = (layers n gs).length
      · have hnil : layer n gs = [] := by
          rw [hround, List.length_append, List.length_take] at hstuck
          exact List.eq_nil_of_length_eq_zero (by omega)
        refine ⟨n, 0, ?_, .inr ⟨hnil, ?_⟩⟩
        · rw [if_pos hstuck, List.take_zero, List.append_nil]
        · rw [List.take_zero, List.append_nil]
          exact hle
      · have hgrown := length_lt_capRound hfull hstuck
        rw [if_neg hstuck, hround]
        by_cases hfits : (layer n gs).length ≤ cap - (layers n gs).length
        · rw [List.take_of_length_le hfits, ← layers_succ]
          rw [hround, List.take_of_length_le hfits, ← layers_succ] at hgrown
          apply ih (n + 1) (by omega)
          rw [layers_succ, List.length_append]
          omega
        · have hlen : (layers n gs ++
              (layer n gs).take (cap - (layers n gs).length)).length = cap := by
            rw [List.length_append, List.length_take]
            omega
          refine ⟨n, cap - (layers n gs).length, ?_, .inl hlen⟩
          exact capRounds_full hlen.ge gs fuel (n + 1)

/-- The pending keys of a rule, in the order in which they were made. -/
def keysOf (acc : InflightAccumulator) (ruleId : Int) : List String :=
  (acc.pending.entries.filter fun e => e.2.rule.ruleId = ruleId).map Prod.fst

theorem keysByRule_bucket (acc : InflightAccumulator) (ruleId : Int) :
    acc.keysByRule.bucket ruleId = acc.keysOf ruleId := by
  rw [keysByRule, Dict.bucket_pushAll, Dict.bucket_empty, List.nil_append, Assoc.values,
    List.filter_map, List.map_map, keysOf]
  rfl

theorem keysOf_of_mem {acc : InflightAccumulator} {p : Int × List String}
    (h : p ∈ acc.keysByRule.entries) : acc.keysOf p.1 = p.2 := by
  rw [← keysByRule_bucket, Dict.bucket, (acc.keysByRule.mem_entries_iff).1 h, Option.getD_some]

theorem mem_entries_of_keysOf {acc : InflightAccumulator} {ruleId : Int}
    (h : acc.keysOf ruleId ≠ []) : (ruleId, acc.keysOf ruleId) ∈ acc.keysByRule.entries := by
  rw [← keysByRule_bucket, Dict.bucket] at h
  rw [Dict.mem_entries_iff, ← keysByRule_bucket, Dict.bucket]
  cases hget : acc.keysByRule.get? ruleId with
  | none =>
    rw [hget] at h
    exact absurd rfl h
  | some keys => rfl

theorem mem_keysOf {acc : InflightAccumulator} {ruleId : Int} :
    k ∈ acc.keysOf ruleId ↔ ∃ item, (k, item) ∈ acc.pending.entries ∧ item.rule.ruleId = ruleId := by
  simp [keysOf]

theorem keysOf_nodup (acc : InflightAccumulator) (ruleId : Int) : (acc.keysOf ruleId).Nodup :=
  acc.pending.nodup.sublist (List.filter_sublist.map Prod.fst)

theorem rule_unique {acc : InflightAccumulator} (h : k ∈ acc.keysOf r) (h' : k ∈ acc.keysOf s) :
    r = s := by
  obtain ⟨item, hitem, rfl⟩ := mem_keysOf.1 h
  obtain ⟨item', hitem', rfl⟩ := mem_keysOf.1 h'
  have hsame := List.inj_on_of_nodup_map acc.pending.nodup hitem hitem' rfl
  rw [(Prod.mk.inj hsame).2]

/-- The keys that go round. -/
def groups (acc : InflightAccumulator) : List (List String) := acc.keysByRule.entries.map Prod.snd

theorem groups_nodup (acc : InflightAccumulator) : acc.groups.flatten.Nodup := by
  rw [List.nodup_flatten]
  constructor
  · intro g hg
    obtain ⟨p, hp, rfl⟩ := List.mem_map.1 hg
    rw [← keysOf_of_mem hp]
    exact keysOf_nodup acc p.1
  · rw [groups, List.pairwise_map]
    have hkeys : acc.keysByRule.entries.Pairwise fun p q => p.1 ≠ q.1 :=
      List.pairwise_map.1 acc.keysByRule.nodup
    apply hkeys.imp_of_mem
    intro p q hp hq hne k hk hk'
    rw [← keysOf_of_mem hp] at hk
    rw [← keysOf_of_mem hq] at hk'
    exact hne (rule_unique hk hk')

theorem length_groups (acc : InflightAccumulator) :
    acc.groups.flatten.length = acc.pending.entries.length := by
  have htotal := Dict.total_pushAll (.empty : Dict Int (List String))
    (acc.pending.entries.map fun e => (e.2.rule.ruleId, e.1))
  rw [List.length_map] at htotal
  rw [List.length_flatten, groups, List.map_map]
  exact htotal.trans (Nat.zero_add _)

variable (cfg : InflightSettings)

/-- What the cap keeps, when it cuts: of each rule a beginning, no rule more than one key longer
than another's that is cut. -/
theorem capKept_perm {acc : InflightAccumulator}
    (hcut : ¬ acc.pending.entries.length ≤ cfg.maxDetectionsPerFlush) :
    ∃ N i, (acc.capKept cfg).Perm (dealt N i acc.groups).flatten ∧
      (acc.capKept cfg).length = cfg.maxDetectionsPerFlush := by
  obtain ⟨N, j, heq, hend⟩ := capRounds_dealt cfg.maxDetectionsPerFlush acc.groups
    cfg.maxDetectionsPerFlush 0 (Nat.sub_le _ _) (Nat.zero_le _)
  have hkept : acc.capKept cfg = layers N acc.groups ++ (layer N acc.groups).take j := heq
  obtain ⟨i, hperm⟩ := dealt_perm N j acc.groups
  refine ⟨N, i, hkept ▸ hperm, ?_⟩
  rcases hend with hlen | ⟨hnil, hlen⟩
  · rw [hkept, hlen]
  · have hall := hperm.length_eq
    rw [dealt_eq_of_layer_nil hnil, length_groups] at hall
    exact absurd (hall ▸ hlen) hcut

def quota (N i : Nat) (acc : InflightAccumulator) (ruleId : Int) : Nat :=
  if ruleId ∈ (acc.keysByRule.entries.take i).map Prod.fst then N + 1 else N

theorem mem_dealt {acc : InflightAccumulator} (N i : Nat) (hk : k ∈ acc.keysOf r) :
    k ∈ (dealt N i acc.groups).flatten ↔ k ∈ (acc.keysOf r).take (quota N i acc r) := by
  have hentries := List.take_append_drop i acc.keysByRule.entries
  have howner : ∀ p ∈ acc.keysByRule.entries, k ∈ p.2 → p.1 = r := by
    intro p hp hkp
    rw [← keysOf_of_mem hp] at hkp
    exact rule_unique hkp hk
  have hdisjoint : r ∈ (acc.keysByRule.entries.drop i).map Prod.fst →
      r ∉ (acc.keysByRule.entries.take i).map Prod.fst := by
    intro hdrop htake
    have hnodup := acc.keysByRule.nodup
    rw [← hentries, List.map_append] at hnodup
    exact (List.nodup_append.1 hnodup).2.2 r htake r hdrop rfl
  rw [dealt, groups, ← List.map_take, ← List.map_drop, List.map_map, List.map_map]
  simp only [List.mem_flatten, List.mem_append, List.mem_map, Function.comp_apply]
  constructor
  · intro h
    obtain ⟨_, ⟨p, hp, rfl⟩ | ⟨p, hp, rfl⟩, hkp⟩ := h
    · have hmem := List.mem_of_mem_take hp
      obtain rfl := howner p hmem (List.mem_of_mem_take hkp)
      rw [quota, if_pos (List.mem_map_of_mem hp), keysOf_of_mem hmem]
      exact hkp
    · have hmem := List.mem_of_mem_drop hp
      obtain rfl := howner p hmem (List.mem_of_mem_take hkp)
      rw [quota, if_neg (hdisjoint (List.mem_map_of_mem hp)), keysOf_of_mem hmem]
      exact hkp
  · intro h
    have hmem := mem_entries_of_keysOf (List.ne_nil_of_mem hk)
    rw [← hentries, List.mem_append] at hmem
    rcases hmem with hp | hp
    · rw [quota, if_pos (List.mem_map_of_mem hp)] at h
      exact ⟨_, .inl ⟨_, hp, rfl⟩, h⟩
    · rw [quota, if_neg (hdisjoint (List.mem_map_of_mem hp))] at h
      exact ⟨_, .inr ⟨_, hp, rfl⟩, h⟩

theorem entries_applyFlushCap {acc : InflightAccumulator}
    (hcut : ¬ acc.pending.entries.length ≤ cfg.maxDetectionsPerFlush) :
    (acc.applyFlushCap cfg).pending.entries =
      acc.pending.entries.filter fun e => decide (e.1 ∈ acc.capKept cfg) := by
  rw [applyFlushCap, if_neg hcut]
  simp only [(foldl_countError .flushCap Prod.fst Prod.snd _ _).1]
  rfl

theorem filter_mem_take [DecidableEq α] {l : List α} (hl : l.Nodup) (n : Nat) :
    l.filter (fun a => decide (a ∈ l.take n)) = l.take n := by
  have hsplit := List.take_append_drop n l
  rw [← hsplit] at hl
  have hdisjoint := (List.nodup_append.1 hl).2.2
  conv_lhs => arg 2; rw [← hsplit]
  rw [List.filter_append, List.filter_eq_self.2 fun a ha => decide_eq_true ha,
    List.filter_eq_nil_iff.2, List.append_nil]
  intro a ha hmem
  exact hdisjoint a (of_decide_eq_true hmem) a ha rfl

theorem keysOf_applyFlushCap {acc : InflightAccumulator}
    (hcut : ¬ acc.pending.entries.length ≤ cfg.maxDetectionsPerFlush)
    (hperm : (acc.capKept cfg).Perm (dealt N i acc.groups).flatten) (r : Int) :
    (acc.applyFlushCap cfg).keysOf r = (acc.keysOf r).take (quota N i acc r) := by
  have hfilter : (acc.applyFlushCap cfg).keysOf r =
      (acc.keysOf r).filter fun k => decide (k ∈ acc.capKept cfg) := by
    rw [keysOf, keysOf, entries_applyFlushCap cfg hcut, List.filter_map, List.filter_filter,
      List.filter_filter]
    congr 1
    apply List.filter_congr
    intro e _
    exact Bool.and_comm _ _
  rw [hfilter, ← filter_mem_take (keysOf_nodup acc r)]
  apply List.filter_congr
  intro k hk
  rw [decide_eq_decide, hperm.mem_iff, mem_dealt N i hk]

/-- As many keys stay as the cap says. -/
theorem length_applyFlushCap {acc : InflightAccumulator}
    (hcut : ¬ acc.pending.entries.length ≤ cfg.maxDetectionsPerFlush) :
    (acc.applyFlushCap cfg).pending.entries.length = cfg.maxDetectionsPerFlush := by
  obtain ⟨N, i, hperm, hlen⟩ := capKept_perm cfg hcut
  have hkeptnodup : (acc.capKept cfg).Nodup :=
    hperm.nodup_iff.2 ((groups_nodup acc).sublist (dealt_sublist N i acc.groups))
  have hpending : ∀ k ∈ acc.capKept cfg, k ∈ acc.pending.entries.map Prod.fst := by
    intro k hk
    have hmem := (dealt_sublist N i acc.groups).subset (hperm.mem_iff.1 hk)
    obtain ⟨g, hg, hkg⟩ := List.mem_flatten.1 hmem
    obtain ⟨p, hp, rfl⟩ := List.mem_map.1 hg
    rw [← keysOf_of_mem hp] at hkg
    obtain ⟨item, hitem, _⟩ := mem_keysOf.1 hkg
    exact List.mem_map_of_mem hitem
  rw [← hlen, entries_applyFlushCap cfg hcut, ← List.length_map Prod.fst]
  apply List.Perm.length_eq
  rw [List.perm_ext_iff_of_nodup
    (acc.pending.nodup.sublist (List.filter_sublist.map Prod.fst)) hkeptnodup]
  intro k
  constructor
  · intro hk
    obtain ⟨e, he, rfl⟩ := List.mem_map.1 hk
    exact of_decide_eq_true (List.mem_filter.1 he).2
  · intro hk
    obtain ⟨e, he, rfl⟩ := List.mem_map.1 (hpending k hk)
    exact List.mem_map_of_mem (List.mem_filter.2 ⟨he, decide_eq_true hk⟩)

/-- What `_apply_flush_cap` returns. -/
def flushCapLost (acc : InflightAccumulator) : Nat :=
  if acc.pending.entries.length ≤ cfg.maxDetectionsPerFlush then 0
  else acc.pending.entries.length - (acc.applyFlushCap cfg).pending.entries.length

/-- How many keys of a rule the cap drops. -/
def droppedOf (acc : InflightAccumulator) (ruleId : Int) : Nat :=
  (acc.keysOf ruleId).length - ((acc.applyFlushCap cfg).keysOf ruleId).length

theorem length_keysOf (acc : InflightAccumulator) (r : Int) :
    (acc.keysOf r).length = (acc.pending.entries.map fun e => e.2.rule.ruleId).count r := by
  rw [keysOf, List.length_map, List.count, List.countP_map, List.countP_eq_length_filter]
  rfl

theorem applyFlushCap_of_fits {acc : InflightAccumulator}
    (h : acc.pending.entries.length ≤ cfg.maxDetectionsPerFlush) : acc.applyFlushCap cfg = acc :=
  if_pos h

theorem keysOf_add_gone {acc : InflightAccumulator}
    (hcut : ¬ acc.pending.entries.length ≤ cfg.maxDetectionsPerFlush) (r : Int) :
    (acc.keysOf r).length = ((acc.applyFlushCap cfg).keysOf r).length +
      (acc.pending.entries.filter fun e => decide (e.1 ∉ acc.capKept cfg)).countP
        fun e => decide (e.2.rule.ruleId = r) := by
  rw [keysOf, keysOf, List.length_map, List.length_map, ← List.countP_eq_length_filter,
    ← List.countP_eq_length_filter, entries_applyFlushCap cfg hcut,
    List.countP_eq_countP_filter_add _ _ fun e => decide (e.1 ∈ acc.capKept cfg)]
  simp only [decide_not]

theorem errors_applyFlushCap (acc : InflightAccumulator) (r : Int) :
    (acc.applyFlushCap cfg).errors.count .flushCap r =
      acc.errors.count .flushCap r + acc.droppedOf cfg r := by
  rw [droppedOf]
  by_cases hcut : acc.pending.entries.length ≤ cfg.maxDetectionsPerFlush
  · rw [applyFlushCap_of_fits cfg hcut, Nat.sub_self, Nat.add_zero]
  · rw [keysOf_add_gone cfg hcut r, Nat.add_sub_cancel_left, applyFlushCap, if_neg hcut]
    simp only [(foldl_countError .flushCap Prod.fst Prod.snd _ _).2]
    rw [Ledger.count_chargeEach, if_pos rfl, Dict.get?_foldl_bump]
    exact congrArg _ (Nat.zero_add _)

theorem sum_length_keysOf (acc : InflightAccumulator) {rules : Finset Int}
    (h : ∀ e ∈ acc.pending.entries, e.2.rule.ruleId ∈ rules) :
    ∑ r ∈ rules, (acc.keysOf r).length = acc.pending.entries.length := by
  have hsum := Multiset.sum_count_eq_card (s := rules)
    (m := (acc.pending.entries.map fun e => e.2.rule.ruleId : List Int)) (by
      intro r hr
      obtain ⟨e, he, rfl⟩ := List.mem_map.1 (Multiset.mem_coe.1 hr)
      exact h e he)
  simpa [length_keysOf] using hsum

theorem mem_of_mem_applyFlushCap {acc : InflightAccumulator}
    (h : e ∈ (acc.applyFlushCap cfg).pending.entries) : e ∈ acc.pending.entries := by
  by_cases hcut : acc.pending.entries.length ≤ cfg.maxDetectionsPerFlush
  · rwa [applyFlushCap_of_fits cfg hcut] at h
  · rw [entries_applyFlushCap cfg hcut] at h
    exact (List.mem_filter.1 h).1

theorem keysOf_kept (acc : InflightAccumulator) (r : Int) :
    (acc.applyFlushCap cfg).keysOf r <+: acc.keysOf r := by
  by_cases hcut : acc.pending.entries.length ≤ cfg.maxDetectionsPerFlush
  · rw [applyFlushCap_of_fits cfg hcut]
  · obtain ⟨N, i, hperm, _⟩ := capKept_perm cfg hcut
    rw [keysOf_applyFlushCap cfg hcut hperm r]
    exact List.take_prefix _ _

theorem flushCapLost_eq (acc : InflightAccumulator) {rules : Finset Int}
    (h : ∀ e ∈ acc.pending.entries, e.2.rule.ruleId ∈ rules) :
    acc.flushCapLost cfg = ∑ r ∈ rules, acc.droppedOf cfg r := by
  have hlost : acc.flushCapLost cfg =
      acc.pending.entries.length - (acc.applyFlushCap cfg).pending.entries.length := by
    rw [flushCapLost]
    by_cases hcut : acc.pending.entries.length ≤ cfg.maxDetectionsPerFlush
    · rw [if_pos hcut, applyFlushCap_of_fits cfg hcut, Nat.sub_self]
    · rw [if_neg hcut]
  rw [hlost, ← sum_length_keysOf acc h,
    ← sum_length_keysOf (acc.applyFlushCap cfg) fun e he => h e (mem_of_mem_applyFlushCap cfg he)]
  exact (Finset.sum_tsub_distrib _ fun r _ => (keysOf_kept cfg acc r).length_le).symm

theorem share_fair (acc : InflightAccumulator) (r s : Int)
    (hlost : (acc.applyFlushCap cfg).keysOf r ≠ acc.keysOf r) :
    ((acc.applyFlushCap cfg).keysOf s).length ≤ ((acc.applyFlushCap cfg).keysOf r).length + 1 := by
  by_cases hcut : acc.pending.entries.length ≤ cfg.maxDetectionsPerFlush
  · rw [applyFlushCap_of_fits cfg hcut] at hlost
    exact absurd rfl hlost
  · obtain ⟨N, i, hperm, _⟩ := capKept_perm cfg hcut
    rw [keysOf_applyFlushCap cfg hcut hperm] at hlost ⊢
    rw [keysOf_applyFlushCap cfg hcut hperm]
    have hshort : quota N i acc r < (acc.keysOf r).length := by
      by_contra hle
      exact hlost (List.take_of_length_le (Nat.le_of_not_lt hle))
    have hshare : ∀ q, N ≤ quota N i acc q ∧ quota N i acc q ≤ N + 1 := by
      intro q
      rw [quota]
      split <;> omega
    have hr := hshare r
    have hs := hshare s
    rw [List.length_take, List.length_take]
    omega

end InflightAccumulator

theorem flush_cap_fair (cfg : InflightSettings) (acc : InflightAccumulator) :
    (∀ fuel, cfg.maxDetectionsPerFlush ≤ fuel →
      InflightAccumulator.capRounds cfg.maxDetectionsPerFlush acc.groups fuel 0 [] =
        acc.capKept cfg) ∧
    (acc.applyFlushCap cfg).pending.entries.length =
      min cfg.maxDetectionsPerFlush acc.pending.entries.length ∧
    (∀ r, (acc.applyFlushCap cfg).errors.count .flushCap r =
      acc.errors.count .flushCap r + acc.droppedOf cfg r) ∧
    acc.flushCapLost cfg = ∑ r ∈ acc.keysByRule.keys, acc.droppedOf cfg r ∧
    (∀ r, (acc.applyFlushCap cfg).keysOf r <+: acc.keysOf r) ∧
    ∀ r s, (acc.applyFlushCap cfg).keysOf r ≠ acc.keysOf r →
      ((acc.applyFlushCap cfg).keysOf s).length ≤
        ((acc.applyFlushCap cfg).keysOf r).length + 1 := by
  refine ⟨?_, ?_, acc.errors_applyFlushCap cfg, ?_, acc.keysOf_kept cfg, acc.share_fair cfg⟩
  · intro fuel hfuel
    exact InflightAccumulator.capRounds_enough _ _ hfuel (Nat.sub_le _ _)
  · by_cases hcut : acc.pending.entries.length ≤ cfg.maxDetectionsPerFlush
    · rw [InflightAccumulator.applyFlushCap_of_fits cfg hcut, min_eq_right hcut]
    · rw [InflightAccumulator.length_applyFlushCap cfg hcut, min_eq_left (Nat.le_of_not_le hcut)]
  · apply acc.flushCapLost_eq cfg
    intro e he
    have hkey : e.1 ∈ acc.keysOf e.2.rule.ruleId :=
      InflightAccumulator.mem_keysOf.2 ⟨e.2, he, rfl⟩
    have hentry := InflightAccumulator.mem_entries_of_keysOf (List.ne_nil_of_mem hkey)
    exact List.mem_toFinset.2 (List.mem_map_of_mem hentry)

end CentralOps
