import Mathlib.Algebra.GroupWithZero.Nat
import Mathlib.Algebra.BigOperators.Group.List.Basic
import Mathlib.Data.Int.Order.Basic

set_option autoImplicit true

def List.weight (size : α → Nat) (l : List α) : Nat := (l.map size).sum

namespace Eviction

variable {size : α → Nat} {more : List α → Int → Bool}

/-- As long as there is more to do the last of the list goes, and its size off the account. -/
def evict (size : α → Nat) (more : List α → Int → Bool) : Nat → List α → Int → List α × Int
  | 0, l, used => (l, used)
  | fuel + 1, l, used =>
    if more l used then
      match l.getLast? with
      | none => (l, used)
      | some popped => evict size more fuel l.dropLast (used - size popped)
    else (l, used)

theorem weight_dropLast {l : List α} (h : l.getLast? = some popped) :
    l.dropLast.weight size + size popped = l.weight size := by
  obtain ⟨rest, rfl⟩ := List.getLast?_eq_some_iff.1 h
  rw [List.dropLast_concat, List.weight, List.weight, List.map_append, List.sum_append]
  rfl

theorem evict_balance (fuel : Nat) (l : List α) (used : Int) :
    (evict size more fuel l used).2 - (evict size more fuel l used).1.weight size =
      used - l.weight size := by
  induction fuel generalizing l used with
  | zero => rfl
  | succ fuel ih =>
    rw [evict]
    split
    · cases h : l.getLast? with
      | none => rfl
      | some popped =>
        have hweight : l.dropLast.weight size + size popped = l.weight size := weight_dropLast h
        have hrest := ih l.dropLast (used - size popped)
        simp only
        omega
    · rfl

theorem evict_prefix (fuel : Nat) (l : List α) (used : Int) :
    (evict size more fuel l used).1 <+: l := by
  induction fuel generalizing l used with
  | zero => exact List.prefix_refl l
  | succ fuel ih =>
    rw [evict]
    split
    · cases h : l.getLast? with
      | none => exact List.prefix_refl l
      | some popped => exact (ih l.dropLast (used - size popped)).trans (List.dropLast_prefix l)
    · exact List.prefix_refl l

theorem evict_stops {fuel : Nat} {l : List α} (h : l.length ≤ fuel) (used : Int) :
    (evict size more fuel l used).1 = [] ∨
      more (evict size more fuel l used).1 (evict size more fuel l used).2 = false := by
  induction fuel generalizing l used with
  | zero => exact .inl (List.length_eq_zero_iff.1 (Nat.le_zero.1 h))
  | succ fuel ih =>
    rw [evict]
    split
    · cases hlast : l.getLast? with
      | none => exact .inl (List.getLast?_eq_none_iff.1 hlast)
      | some popped =>
        apply ih
        rw [List.length_dropLast]
        omega
    · next hmore => exact .inr (Bool.eq_false_iff.2 hmore)

end Eviction
