import Mathlib.Algebra.BigOperators.Group.Finset.Piecewise
import Mathlib.Data.Fintype.Basic
import Mathlib.Data.List.Count
import CentralOps.Lib.Dict

set_option autoImplicit true

/-- Counters by reason and, below each reason, by owner. -/
abbrev Ledger (ρ κ : Type) := Dict ρ (Dict κ Nat)

namespace Ledger

variable {ρ κ α β : Type} [DecidableEq ρ] [DecidableEq κ]

def count (l : Ledger ρ κ) (reason : ρ) (owner : κ) : Nat :=
  ((l.get? reason).bind (fun byOwner => byOwner.get? owner)).getD 0

def charge (l : Ledger ρ κ) (reason : ρ) (owner : κ) (n : Nat) : Ledger ρ κ :=
  l.set reason (((l.get? reason).getD .empty).bump owner n)

theorem count_charge (l : Ledger ρ κ) (reason reason' : ρ) (owner owner' : κ) (n : Nat) :
    (l.charge reason owner n).count reason' owner' =
      l.count reason' owner' + if reason' = reason ∧ owner' = owner then n else 0 := by
  by_cases hr : reason' = reason
  · subst hr
    by_cases ho : owner' = owner
    · subst ho
      cases h : l.get? reason' <;> simp [count, charge, Dict.bump, h]
    · cases h : l.get? reason' <;> simp [count, charge, Dict.bump, Dict.get?_set_ne _ ho, h, ho]
  · simp [count, charge, Dict.get?_set_ne l hr, hr]

theorem count_chargeOnes (l : Ledger ρ κ) (reason reason' : ρ) (f : α → κ) (as : List α)
    (owner : κ) :
    (as.foldl (fun l a => l.charge reason (f a) 1) l).count reason' owner =
      l.count reason' owner +
        if reason' = reason then as.countP (fun a => decide (f a = owner)) else 0 := by
  induction as generalizing l with
  | nil => simp
  | cons a as ih =>
    rw [List.foldl_cons, ih, count_charge, List.countP_cons]
    by_cases hr : reason' = reason
    · by_cases ho : f a = owner
      · simp [hr, ho]
        omega
      · have hne : owner ≠ f a := fun h => ho h.symm
        simp [hr, ho, hne]
    · simp [hr]

theorem count_chargeEach (l : Ledger ρ κ) (reason reason' : ρ) (d : Dict κ Nat) (owner : κ) :
    (d.entries.foldl (fun l p => l.charge reason p.1 p.2) l).count reason' owner =
      l.count reason' owner + if reason' = reason then (d.get? owner).getD 0 else 0 := by
  obtain ⟨entries, hnodup⟩ := d
  induction entries generalizing l with
  | nil => simp [Dict.get?]
  | cons p entries ih =>
    rw [List.map_cons, List.nodup_cons] at hnodup
    rw [List.foldl_cons, ih _ hnodup.2, count_charge]
    simp only [Dict.get?, Assoc.lookup_cons_eq]
    by_cases hr : reason' = reason
    · by_cases ho : p.1 = owner
      · have hnone : entries.lookup owner = none := by
          rw [List.lookup_eq_none_iff]
          intro q hq
          rw [← ho, bne_iff_ne]
          exact fun he => hnodup.1 (he ▸ List.mem_map_of_mem hq)
        simp [hr, ho, hnone]
      · have hne : owner ≠ p.1 := fun h => ho h.symm
        simp [hr, ho, hne]
    · simp [hr]

end Ledger

theorem Dict.get?_bump [DecidableEq κ] (d : Dict κ Nat) (k j : κ) (n : Nat) :
    ((d.bump k n).get? j).getD 0 = (d.get? j).getD 0 + if j = k then n else 0 := by
  by_cases h : j = k
  · subst h
    simp [Dict.bump]
  · simp [Dict.bump, Dict.get?_set_ne d h, h]

theorem Dict.get?_foldl_bump [DecidableEq κ] (d : Dict κ Nat) (f : α → κ) (as : List α) (j : κ) :
    ((as.foldl (fun d a => d.bump (f a) 1) d).get? j).getD 0 =
      (d.get? j).getD 0 + as.countP (fun a => decide (f a = j)) := by
  induction as generalizing d with
  | nil => rfl
  | cons a as ih =>
    rw [List.foldl_cons, ih, Dict.get?_bump, List.countP_cons]
    by_cases h : f a = j
    · simp [h]
      omega
    · have hne : j ≠ f a := fun he => h he.symm
      simp [h, hne]

def Dict.roster (owner : β → κ) (d : Dict α β) : List (α × κ) :=
  d.entries.map (fun p => (p.1, owner p.2))

theorem Dict.roster_filterKeys [DecidableEq α] (owner : β → κ) (d : Dict α β) (q : α → Bool) :
    (d.filterKeys q).roster owner = (d.roster owner).filter (fun e => q e.1) := by
  rw [roster, roster, List.filter_map]
  rfl

theorem Dict.roster_mapEntries [DecidableEq α] (owner : β → κ) (d : Dict α β) (f : α → β → β)
    (h : ∀ k v, owner (f k v) = owner v) : (d.mapEntries f).roster owner = d.roster owner := by
  rw [roster, roster, mapEntries, List.map_map]
  apply List.map_congr_left
  intro p _
  exact Prod.ext rfl (h p.1 p.2)

theorem Dict.roster_set_new [DecidableEq α] (owner : β → κ) {d : Dict α β} (h : d.get? k = none)
    (v : β) : (d.set k v).roster owner = d.roster owner ++ [(k, owner v)] := by
  have hnew : k ∉ d.entries.map Prod.fst := by
    intro hk
    obtain ⟨⟨j, w⟩, hp, rfl⟩ := List.mem_map.1 hk
    rw [d.mem_entries_iff.1 hp] at h
    cases h
  have hentries : (d.set k v).entries = d.entries ++ [(k, v)] := Assoc.set_of_notMem hnew v
  rw [roster, hentries, List.map_append]
  rfl

theorem Dict.roster_set_again [DecidableEq α] (owner : β → κ) {d : Dict α β}
    (h : d.get? k = some w) (howner : owner v = owner w) :
    (d.set k v).roster owner = d.roster owner := by
  obtain ⟨entries, hnodup⟩ := d
  have hlookup : entries.lookup k = some w := h
  change (Assoc.set k v entries).map (fun p => (p.1, owner p.2)) =
    entries.map (fun p => (p.1, owner p.2))
  clear hnodup h
  induction entries with
  | nil => cases hlookup
  | cons p entries ih =>
    rw [Assoc.lookup_cons_eq] at hlookup
    rw [Assoc.set]
    by_cases hk : p.1 = k
    · rw [if_pos hk] at hlookup ⊢
      cases hlookup
      rw [List.map_cons, List.map_cons, howner, ← hk]
    · rw [if_neg hk] at hlookup ⊢
      rw [List.map_cons, List.map_cons, ih hlookup]

theorem Dict.countP_roster (owner : β → κ) (d : Dict α β) (q : α × κ → Bool) :
    (d.roster owner).countP q = d.entries.countP (fun p => q (p.1, owner p.2)) := by
  rw [roster, List.countP_map]
  rfl

theorem Dict.mem_keys_filter (owner : β → κ) (d : Dict α β) (q : α → Bool) {e : α × κ}
    (he : e ∈ d.roster owner) :
    e.1 ∈ (d.entries.filter (fun p => q p.1)).map Prod.fst ↔ q e.1 = true := by
  obtain ⟨p, hp, rfl⟩ := List.mem_map.1 he
  constructor
  · intro h
    obtain ⟨p', hp', hk⟩ := List.mem_map.1 h
    exact hk ▸ (List.mem_filter.1 hp').2
  · exact fun h => List.mem_map_of_mem (List.mem_filter.2 ⟨hp, h⟩)

/-- What a filter did to the entries `before`: `why` gives the fate of each key that went, and a
fate with a reason has been charged to it once for each such key. -/
structure Settles [DecidableEq ρ] [DecidableEq κ] [DecidableEq φ] (reasonOf : φ → Option ρ)
    (before : List (α × κ)) (l : Ledger ρ κ) (after : List (α × κ)) (l' : Ledger ρ κ)
    (why : α → Option φ) : Prop where
  kept : after = before.filter (fun e => (why e.1).isNone)
  charged : ∀ fate reason owner, reasonOf fate = some reason →
    l'.count reason owner =
      l.count reason owner +
        before.countP (fun e => decide (e.2 = owner) && decide (why e.1 = some fate))

theorem countP_or {p q r : α → Bool} {l : List α} (h : ∀ a ∈ l, p a = (q a || r a))
    (hqr : ∀ a ∈ l, q a = true → r a = false) : l.countP p = l.countP q + l.countP r := by
  induction l with
  | nil => rfl
  | cons a l ih =>
    have hl := ih (fun b hb => h b (List.mem_cons_of_mem a hb))
      (fun b hb => hqr b (List.mem_cons_of_mem a hb))
    have ha := h a List.mem_cons_self
    have hd := hqr a List.mem_cons_self
    rw [List.countP_cons, List.countP_cons, List.countP_cons, hl, ha]
    cases hq : q a with
    | true =>
      rw [hd hq]
      simp
      omega
    | false =>
      cases r a
      · simp
      · simp
        omega

theorem sum_countP_class [Fintype φ] [DecidableEq φ] (l : List α) (p : α → Bool) (f : α → φ) :
    ∑ c, l.countP (fun a => p a && decide (f a = c)) = l.countP p := by
  induction l with
  | nil => simp
  | cons a l ih =>
    simp only [List.countP_cons, Finset.sum_add_distrib, ih]
    congr 1
    cases p a <;> simp

/-- Two ways to class the entries of `l` that agree on every class but one agree on that one. -/
theorem countP_class_eq [Fintype φ] [DecidableEq φ] (l : List α) (p : α → Bool) (f g : α → φ)
    (c : φ) (h : ∀ d, d ≠ c → l.countP (fun a => p a && decide (f a = d)) =
      l.countP (fun a => p a && decide (g a = d))) :
    l.countP (fun a => p a && decide (f a = c)) = l.countP (fun a => p a && decide (g a = c)) := by
  have hf := Finset.add_sum_erase Finset.univ
    (fun d => l.countP (fun a => p a && decide (f a = d))) (Finset.mem_univ c)
  have hg := Finset.add_sum_erase Finset.univ
    (fun d => l.countP (fun a => p a && decide (g a = d))) (Finset.mem_univ c)
  have hrest := Finset.sum_congr rfl (fun d (hd : d ∈ Finset.univ.erase c) =>
    h d (Finset.ne_of_mem_erase hd))
  simp only [sum_countP_class] at hf hg
  omega

namespace Settles

variable {ρ κ φ α : Type} [DecidableEq ρ] [DecidableEq κ] [DecidableEq φ] {reasonOf : φ → Option ρ}
  {first second third : List (α × κ)} {l l' l'' : Ledger ρ κ} {why why' : α → Option φ}

theorem refl : Settles reasonOf first l first l (fun _ => none) where
  kept := by simp
  charged fate reason owner _ := by simp

/-- A key that a first filter leaves may go in a second one, for that one's reason. -/
theorem trans (h : Settles reasonOf first l second l' why)
    (h' : Settles reasonOf second l' third l'' why') :
    Settles reasonOf first l third l'' (fun k => (why k).or (why' k)) where
  kept := by
    rw [h'.kept, h.kept, List.filter_filter]
    apply List.filter_congr
    intro e _
    cases why e.1 <;> simp
  charged fate reason owner ht := by
    rw [h'.charged fate reason owner ht, h.charged fate reason owner ht, h.kept,
      List.countP_filter, Nat.add_assoc]
    congr 1
    symm
    apply countP_or
    · intro e _
      apply Bool.eq_iff_iff.2
      simp only [Bool.or_eq_true, Bool.and_eq_true, decide_eq_true_eq]
      cases why e.1 <;> simp
    · intro e _ he
      rw [Bool.and_eq_true, decide_eq_true_eq, decide_eq_true_eq] at he
      simp [he.2]

end Settles
