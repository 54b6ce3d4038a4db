import Mathlib.Algebra.BigOperators.Group.List.Basic
import Mathlib.Data.Int.Notation
import Mathlib.Tactic.Ring

set_option autoImplicit true

/-! Marks at instants, each with a weight, counted by the buckets in which the instants lie. -/

namespace Buckets

def weight (p : Int → Bool) (marks : List (Int × Nat)) : Nat :=
  ((marks.filter (fun m => p m.1)).map Prod.snd).sum

variable {p q : Int → Bool} {marks : List (Int × Nat)} {b : Int}

theorem weight_cons (p : Int → Bool) (m : Int × Nat) (marks : List (Int × Nat)) :
    weight p (m :: marks) = (if p m.1 then m.2 else 0) + weight p marks := by
  cases h : p m.1 with
  | true => simp [weight, h]
  | false => simp [weight, h]

theorem weight_append (p : Int → Bool) (marks more : List (Int × Nat)) :
    weight p (marks ++ more) = weight p marks + weight p more := by
  rw [weight, List.filter_append, List.map_append, List.sum_append]
  rfl

theorem weight_congr (h : ∀ m ∈ marks, p m.1 = q m.1) : weight p marks = weight q marks := by
  rw [weight, List.filter_congr h]
  rfl

theorem weight_mono (h : ∀ m ∈ marks, p m.1 = true → q m.1 = true) :
    weight p marks ≤ weight q marks := by
  induction marks with
  | nil => exact Nat.le_refl 0
  | cons m marks ih =>
    have hrest := ih fun m' hm' => h m' (List.mem_cons_of_mem m hm')
    rw [weight_cons, weight_cons]
    apply Nat.add_le_add _ hrest
    cases hp : p m.1 with
    | false => exact Nat.zero_le _
    | true => rw [h m List.mem_cons_self hp]

/-- Marks of positive weight are counted among fewer just where none of them is left out. -/
theorem weight_le_iff (hpos : ∀ m ∈ marks, 0 < m.2) (hqp : ∀ m ∈ marks, q m.1 = true → p m.1 = true) :
    weight p marks ≤ weight q marks ↔ ∀ m ∈ marks, p m.1 = true → q m.1 = true := by
  constructor
  · induction marks with
    | nil => exact fun _ => nofun
    | cons m marks ih =>
      intro hle
      have hqp' : ∀ m' ∈ marks, q m'.1 = true → p m'.1 = true :=
        fun m' hm' => hqp m' (List.mem_cons_of_mem m hm')
      have hrest : weight q marks ≤ weight p marks := weight_mono hqp'
      rw [weight_cons, weight_cons] at hle
      have hm := hpos m List.mem_cons_self
      have hhead : p m.1 = true → q m.1 = true := by
        intro hp
        by_contra hq
        rw [if_pos hp, if_neg hq] at hle
        omega
      have htail : weight p marks ≤ weight q marks := by
        cases hp : p m.1 with
        | false =>
          have hq : q m.1 = false := by
            by_contra hq
            have := hqp m List.mem_cons_self ((Bool.not_eq_false _).mp hq)
            rw [hp] at this
            cases this
          rw [hp, hq] at hle
          exact Nat.le_of_add_le_add_left hle
        | true =>
          rw [hp, hhead hp] at hle
          exact Nat.le_of_add_le_add_left hle
      intro m' hm'
      obtain rfl | hm' := List.mem_cons.1 hm'
      · exact hhead
      · exact ih (fun m' hm' => hpos m' (List.mem_cons_of_mem m hm')) hqp' htail m' hm'
  · exact weight_mono

theorem weight_or (h : ∀ t, p t = true → q t = false) (marks : List (Int × Nat)) :
    weight p marks + weight q marks = weight (fun t => p t || q t) marks := by
  induction marks with
  | nil => rfl
  | cons m marks ih =>
    rw [weight_cons, weight_cons, weight_cons, ← ih]
    cases hp : p m.1 with
    | true =>
      rw [h m.1 hp]
      simp only [if_true, Bool.or_false, Bool.false_eq_true, if_false]
      ring
    | false =>
      simp only [Bool.false_or, Bool.false_eq_true, if_false]
      ring

theorem sum_buckets (b : Int) {ids : List Int} (hnodup : ids.Nodup) (marks : List (Int × Nat)) :
    (ids.map (fun k => weight (fun t => decide (t / b = k)) marks)).sum =
      weight (fun t => decide (t / b ∈ ids)) marks := by
  induction ids with
  | nil =>
    have hnone : weight (fun t => decide (t / b ∈ ([] : List Int))) marks = 0 := by
      simp [weight]
    exact hnone.symm
  | cons k ids ih =>
    obtain ⟨hnew, hnodup⟩ := List.nodup_cons.1 hnodup
    rw [List.map_cons, List.sum_cons, ih hnodup, weight_or]
    · apply weight_congr
      intro m _
      rw [Bool.eq_iff_iff, Bool.or_eq_true, decide_eq_true_eq, decide_eq_true_eq, decide_eq_true_eq,
        List.mem_cons]
    · intro t ht
      rw [decide_eq_true_eq] at ht
      rw [decide_eq_false_iff_not, ht]
      exact hnew

end Buckets
