import Mathlib.Data.List.Sort
import Mathlib.Data.Prod.Lex

namespace FirstMatch
set_option autoImplicit true

/-- Two tests find the same place when what only the weaker one passes stands after something that
both pass. -/
theorem findIdx?_eq_iff {p q : α → Bool} (hqp : ∀ x, q x = true → p x = true) (xs : List α) :
    xs.findIdx? q = xs.findIdx? p ↔
      ∀ (i : Nat) (x : α), xs[i]? = some x → p x = true → q x = false →
        ∃ j < i, ∃ y : α, xs[j]? = some y ∧ q y = true := by
  induction xs with
  | nil => simp
  | cons a xs ih =>
    rw [List.findIdx?_cons, List.findIdx?_cons]
    cases hq : q a with
    | true =>
      rw [if_pos rfl, if_pos (hqp a hq)]
      refine iff_of_true rfl ?_
      intro i x hi _ hx
      cases i with
      | zero =>
        obtain rfl : a = x := Option.some.inj hi
        rw [hq] at hx
        cases hx
      | succ i => exact ⟨0, i.succ_pos, a, rfl, hq⟩
    | false =>
      rw [if_neg Bool.false_ne_true]
      cases hp : p a with
      | true =>
        rw [if_pos rfl]
        apply iff_of_false
        · cases List.findIdx? q xs <;> simp
        · intro h
          obtain ⟨j, hj, _⟩ := h 0 a rfl hp hq
          exact absurd hj j.not_lt_zero
      | false =>
        rw [if_neg Bool.false_ne_true, Option.map_injective (Nat.succ_injective) |>.eq_iff, ih]
        constructor
        · intro h i x hi hx hqx
          cases i with
          | zero =>
            obtain rfl : a = x := Option.some.inj hi
            rw [hp] at hx
            cases hx
          | succ i =>
            obtain ⟨j, hj, y, hy, hqy⟩ := h i x hi hx hqx
            exact ⟨j + 1, Nat.succ_lt_succ hj, y, hy, hqy⟩
        · intro h i x hi hx hqx
          obtain ⟨j, hj, y, hy, hqy⟩ := h (i + 1) x hi hx hqx
          cases j with
          | zero =>
            obtain rfl : a = y := Option.some.inj hy
            rw [hq] at hqy
            cases hqy
          | succ j => exact ⟨j, Nat.lt_of_succ_lt_succ hj, y, hy, hqy⟩

theorem find?_eq_getElem (p : α → Bool) (xs : List α) :
    xs.find? p = (xs.findIdx? p).bind fun i => xs[i]? := by
  induction xs with
  | nil => rfl
  | cons a xs ih =>
    rw [List.find?_cons, List.findIdx?_cons]
    cases p a with
    | true => rfl
    | false =>
      rw [ih, if_neg Bool.false_ne_true]
      cases xs.findIdx? p <;> rfl

section Ranked
variable {r : α → α → Prop} {p : α → Bool}

/-- The first match in a sorted list stands before every other match in the order. -/
theorem find?_le [Std.Refl r] {xs : List α} (hsorted : xs.Pairwise r) (ha : xs.find? p = some a) :
    ∀ b ∈ xs, p b = true → r a b := by
  induction xs with
  | nil => cases ha
  | cons x xs ih =>
    obtain ⟨hx, hxs⟩ := List.pairwise_cons.1 hsorted
    rw [List.find?_cons] at ha
    intro b hb hpb
    cases hp : p x with
    | true =>
      rw [hp] at ha
      obtain rfl : x = a := Option.some.inj ha
      rcases List.mem_cons.1 hb with rfl | hb
      · exact refl _
      · exact hx b hb
    | false =>
      rw [hp] at ha
      rcases List.mem_cons.1 hb with rfl | hb
      · rw [hp] at hpb
        cases hpb
      · exact ih hxs ha b hb hpb

/-- Where no two matches have one rank, the first match does not depend on the order in which the
list was given before it was sorted. -/
theorem find?_eq_of_perm [Std.Refl r] {xs ys : List α} (hperm : xs.Perm ys)
    (hxs : xs.Pairwise r) (hys : ys.Pairwise r)
    (huniq : ∀ a ∈ xs, ∀ b ∈ xs, p a = true → p b = true → r a b → r b a → a = b) :
    xs.find? p = ys.find? p := by
  cases ha : xs.find? p with
  | none =>
    symm
    rw [List.find?_eq_none] at ha ⊢
    exact fun b hb => ha b (hperm.mem_iff.2 hb)
  | some a =>
    have hma := List.mem_of_find?_eq_some ha
    have hpa := List.find?_some ha
    obtain ⟨b, hb⟩ : ∃ b, ys.find? p = some b := by
      rw [← Option.isSome_iff_exists, List.find?_isSome]
      exact ⟨a, hperm.mem_iff.1 hma, hpa⟩
    have hmb := hperm.mem_iff.2 (List.mem_of_find?_eq_some hb)
    have hpb := List.find?_some hb
    have hab := find?_le hxs ha b hmb hpb
    have hba := find?_le hys hb a (hperm.mem_iff.1 hma) hpa
    rw [hb, huniq a hma b hmb hpa hpb hab hba]

end Ranked
end FirstMatch
