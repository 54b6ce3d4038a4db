import Mathlib.Algebra.Group.Nat.Defs
import Mathlib.Data.Int.Notation
import Mathlib.Data.Nat.Notation

namespace Decimal
set_option autoImplicit true

theorem notMem_natRepr (m : Nat) {c : Char} (hc : c.isDigit = false) : c ∉ m.repr.toList := by
  intro hin
  rw [Nat.toList_repr] at hin
  have hdigit := Nat.isDigit_of_mem_toDigits (by decide) (by decide) hin
  exact Bool.false_ne_true (hc.symm.trans hdigit)

theorem natRepr_injective {m n : Nat} (h : m.repr = n.repr) : m = n := by
  have hlist := congrArg String.toList h
  rw [Nat.toList_repr, Nat.toList_repr] at hlist
  have hdigits := congrArg (fun cs => Nat.ofDigitChars 10 cs 0) hlist
  simpa only [Nat.ofDigitChars_ten_toDigits] using hdigits

theorem toList_negRepr (m : Nat) : (Int.negSucc m).repr.toList = '-' :: (m + 1).repr.toList := by
  rw [Int.repr, String.toList_append]
  rfl

theorem notMem_repr (n : Int) {c : Char} (hc : c.isDigit = false) (hminus : c ≠ '-') :
    c ∉ n.repr.toList := by
  cases n with
  | ofNat m => exact notMem_natRepr m hc
  | negSucc m =>
    rw [toList_negRepr, List.mem_cons, not_or]
    exact ⟨hminus, notMem_natRepr (m + 1) hc⟩

theorem colon_notMem_repr (n : Int) : ':' ∉ n.repr.toList := notMem_repr n rfl (by decide)

theorem intRepr_injective {m n : Int} (h : m.repr = n.repr) : m = n := by
  have hminus : ∀ a b : Nat, (Int.ofNat a).repr ≠ (Int.negSucc b).repr := by
    intro a b hab
    apply notMem_natRepr a (c := '-') rfl
    change '-' ∈ (Int.ofNat a).repr.toList
    rw [hab, toList_negRepr]
    exact List.mem_cons_self
  cases m with
  | ofNat a =>
    cases n with
    | ofNat b => exact congrArg Int.ofNat (natRepr_injective h)
    | negSucc b => exact absurd h (hminus a b)
  | negSucc a =>
    cases n with
    | ofNat b => exact absurd h.symm (hminus b a)
    | negSucc b =>
      have hlists := congrArg String.toList h
      rw [toList_negRepr, toList_negRepr, List.cons.injEq] at hlists
      exact congrArg Int.negSucc
        (Nat.succ.inj (natRepr_injective (String.toList_inj.1 hlists.2)))

/-- A number with zeros in front, to a width. -/
def padded (width n : Nat) : List Char :=
  List.replicate (width - n.repr.length) '0' ++ n.repr.toList

theorem ofDigitChars_padded (width n : Nat) : Nat.ofDigitChars 10 (padded width n) 0 = n := by
  rw [padded, Nat.ofDigitChars_append, Nat.ofDigitChars_replicate_zero, Nat.mul_zero,
    Nat.toList_repr, Nat.ofDigitChars_ten_toDigits]

theorem padded_injective {width width' : Nat} (h : padded width m = padded width' n) : m = n := by
  rw [← ofDigitChars_padded width m, h, ofDigitChars_padded]

theorem notMem_padded (width n : Nat) {c : Char} (hc : c.isDigit = false) : c ∉ padded width n := by
  rw [padded, List.mem_append, not_or]
  refine ⟨fun hin => ?_, notMem_natRepr n hc⟩
  rw [List.eq_of_mem_replicate hin] at hc
  cases hc

theorem isDigit_padded (width n : Nat) : ∀ c ∈ padded width n, c.isDigit = true := by
  intro c hc
  cases hdigit : c.isDigit with
  | true => rfl
  | false => exact absurd hc (notMem_padded width n hdigit)

theorem length_padded {width : Nat} (hpos : 0 < width) (h : n < 10 ^ width) :
    (padded width n).length = width := by
  have hle : n.repr.length ≤ width := (Nat.length_repr_le_iff hpos).2 h
  rw [padded, List.length_append, List.length_replicate, String.length_toList]
  omega

end Decimal
