import Mathlib.Logic.Function.Basic
import Mathlib.Order.Basic
import CentralOps.Lib.Dict

set_option autoImplicit true

/-- A sorted set of a key-value server, and the last instant at which it can be read. -/
structure ExpiringSet (μ : Type) where
  entries : List (μ × Nat)
  deadline : Option Nat

abbrev SortedStore (κ μ : Type) := κ → Option (ExpiringSet μ)

namespace SortedStore

variable {κ μ : Type}

/-- The set, unless it has expired. -/
def live (s : SortedStore κ μ) (now : Nat) (k : κ) : Option (ExpiringSet μ) :=
  (s k).filter (fun z => z.deadline.all (fun d => decide (now ≤ d)))

def members (s : SortedStore κ μ) (now : Nat) (k : κ) : List (μ × Nat) :=
  match s.live now k with
  | some z => z.entries
  | none => []

/-- The members of a set, expired or not. -/
def stored (s : SortedStore κ μ) (k : κ) : List (μ × Nat) :=
  match s k with
  | some z => z.entries
  | none => []

/-- A set is there until its members are past their width, and has no member twice. -/
def Covered (width : κ → Nat) (s : SortedStore κ μ) : Prop :=
  ∀ k z, s k = some z → (z.entries.map Prod.fst).Nodup ∧
    ∀ p ∈ z.entries, ∃ d, z.deadline = some d ∧ p.2 + width k ≤ d

variable {s : SortedStore κ μ} {width : κ → Nat} {now : Nat} {k j : κ}

theorem live_eq_some (h : s.live now k = some z) : s k = some z :=
  (Option.filter_eq_some_iff.1 h).1

theorem members_eq_stored (h : s.live now k = some z) : s.members now k = s.stored k := by
  rw [members, stored, h, live_eq_some h]

theorem mem_stored_of_mem_members (h : p ∈ s.members now k) : p ∈ s.stored k := by
  cases hl : s.live now k with
  | none =>
    rw [members, hl] at h
    cases h
  | some z =>
    rw [members_eq_stored hl] at h
    exact h

theorem members_anti (h : now ≤ later) (hp : p ∈ s.members later k) : p ∈ s.members now k := by
  cases hz : s.live later k with
  | none =>
    rw [members, hz] at hp
    cases hp
  | some z =>
    obtain ⟨hk, hd⟩ := Option.filter_eq_some_iff.1 hz
    have hlive : s.live now k = some z := by
      refine Option.filter_eq_some_iff.2 ⟨hk, ?_⟩
      cases hdl : z.deadline with
      | none => rfl
      | some d =>
        rw [hdl, Option.all_some, decide_eq_true_eq] at hd
        exact decide_eq_true (le_trans h hd)
    rw [members, hz] at hp
    rw [members, hlive]
    exact hp

theorem members_congr {s' : SortedStore κ μ} (h : s' k = s k) :
    s'.members now k = s.members now k := by
  rw [members, members, live, live, h]

theorem Covered.nodup_members (h : Covered width s) : ((s.members now k).map Prod.fst).Nodup := by
  rw [members]
  cases hl : s.live now k with
  | none => exact List.nodup_nil
  | some z => exact (h k z (live_eq_some hl)).1

theorem Covered.mem_members (h : Covered width s) (hp : p ∈ s.stored k)
    (hnow : now < p.2 + width k) : p ∈ s.members now k := by
  cases hz : s k with
  | none =>
    rw [stored, hz] at hp
    cases hp
  | some z =>
    rw [stored, hz] at hp
    obtain ⟨d, hd, hle⟩ := (h k z hz).2 p hp
    have hlive : s.live now k = some z := by
      have hdec : decide (now ≤ d) = true := decide_eq_true (by omega)
      rw [live, hz, Option.filter_some, hd, Option.all_some, hdec, if_pos rfl]
    rw [members, hlive]
    exact hp

variable [DecidableEq κ]

def keep (s : SortedStore κ μ) (now : Nat) (k : κ) (p : μ × Nat → Bool) : SortedStore κ μ :=
  match s.live now k with
  | some z =>
    let rest := z.entries.filter p
    Function.update s k (if rest.isEmpty then none else some { z with entries := rest })
  | none => s

def zremrangebyscore (s : SortedStore κ μ) (now : Nat) (k : κ) (lo hi : Int) : SortedStore κ μ :=
  s.keep now k (fun p => !decide (lo ≤ p.2 ∧ p.2 ≤ hi))

def zrem [DecidableEq μ] (s : SortedStore κ μ) (now : Nat) (k : κ) (m : μ) : SortedStore κ μ :=
  s.keep now k (fun p => decide (p.1 ≠ m))

def zadd [DecidableEq μ] (s : SortedStore κ μ) (now : Nat) (k : κ) (score : Nat) (m : μ) :
    SortedStore κ μ :=
  Function.update s k (some
    { entries := Assoc.set m score (s.members now k)
      deadline := (s.live now k).bind ExpiringSet.deadline })

def pexpire (s : SortedStore κ μ) (now : Nat) (k : κ) (ttl : Nat) : SortedStore κ μ :=
  match s.live now k with
  | some z => Function.update s k (some { z with deadline := some (now + ttl) })
  | none => s

theorem keep_ne (h : j ≠ k) (p : μ × Nat → Bool) : s.keep now k p j = s j := by
  rw [keep]
  cases s.live now k with
  | none => rfl
  | some z => exact Function.update_of_ne h ..

theorem zadd_ne [DecidableEq μ] (h : j ≠ k) (score : Nat) (m : μ) :
    s.zadd now k score m j = s j := Function.update_of_ne h ..

theorem pexpire_ne (h : j ≠ k) (ttl : Nat) : s.pexpire now k ttl j = s j := by
  rw [pexpire]
  cases s.live now k with
  | none => rfl
  | some z => exact Function.update_of_ne h ..

theorem keep_self (h : s.keep now k p k = some z) : ∃ z', s k = some z' ∧
    z.deadline = z'.deadline ∧ z.entries.Sublist z'.entries := by
  rw [keep] at h
  cases hl : s.live now k with
  | none =>
    rw [hl] at h
    exact ⟨z, h, rfl, List.Sublist.refl _⟩
  | some z' =>
    simp only [hl, Function.update_self] at h
    by_cases he : (z'.entries.filter p).isEmpty = true
    · rw [if_pos he] at h
      cases h
    · rw [if_neg he, Option.some.injEq] at h
      subst h
      exact ⟨z', live_eq_some hl, rfl, List.filter_sublist⟩

theorem members_keep (p : μ × Nat → Bool) :
    (s.keep now k p).members now k = (s.members now k).filter p := by
  rw [keep]
  cases hl : s.live now k with
  | none =>
    simp only [members, hl]
    rfl
  | some z =>
    have hdeadline := (Option.filter_eq_some_iff.1 hl).2
    simp only [members, hl]
    rw [live, Function.update_self]
    by_cases he : (z.entries.filter p).isEmpty = true
    · rw [if_pos he, List.isEmpty_iff.1 he]
      rfl
    · rw [if_neg he, Option.filter_some, if_pos hdeadline]

theorem Covered.keep (h : Covered width s) (now : Nat) (k : κ) (p : μ × Nat → Bool) :
    Covered width (s.keep now k p) := by
  intro j z hz
  by_cases hj : j = k
  · subst hj
    obtain ⟨z', hz', hd, hsub⟩ := keep_self hz
    obtain ⟨hnodup, hcover⟩ := h j z' hz'
    refine ⟨hnodup.sublist (hsub.map Prod.fst), fun q hq => ?_⟩
    obtain ⟨d, hd', hle⟩ := hcover q (hsub.subset hq)
    exact ⟨d, hd.trans hd', hle⟩
  · rw [keep_ne hj] at hz
    exact h j z hz

theorem zadd_pexpire_self [DecidableEq μ] (s : SortedStore κ μ) (now : Nat) (k : κ) (score ttl : Nat)
    (m : μ) : ((s.zadd now k score m).pexpire now k ttl) k =
      some ⟨Assoc.set m score (s.members now k), some (now + ttl)⟩ := by
  have hlive : ((s.live now k).bind ExpiringSet.deadline).all (fun d => decide (now ≤ d)) = true := by
    cases hl : s.live now k with
    | none => rfl
    | some z => exact (Option.filter_eq_some_iff.1 hl).2
  rw [pexpire, live, zadd, Function.update_self, Option.filter_some, if_pos hlive]
  exact Function.update_self ..

end SortedStore
