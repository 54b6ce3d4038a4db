import Mathlib.Data.List.Perm.Basic

set_option autoImplicit true

/-- A list dealt out in order to two others. -/
inductive Interleaving : List α → List α → List α → Prop
  | nil : Interleaving [] [] []
  | left : Interleaving as bs xs → Interleaving (x :: as) bs (x :: xs)
  | right : Interleaving as bs xs → Interleaving as (x :: bs) (x :: xs)

namespace Interleaving

theorem allLeft (xs : List α) : Interleaving xs [] xs := by
  induction xs with
  | nil => exact .nil
  | cons x xs ih => exact .left ih

theorem allRight (xs : List α) : Interleaving [] xs xs := by
  induction xs with
  | nil => exact .nil
  | cons x xs ih => exact .right ih

theorem append (h : Interleaving as bs xs) (h' : Interleaving as' bs' xs') :
    Interleaving (as ++ as') (bs ++ bs') (xs ++ xs') := by
  induction h with
  | nil => exact h'
  | left _ ih => exact .left ih
  | right _ ih => exact .right ih

end Interleaving
