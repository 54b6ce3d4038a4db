import Mathlib.Algebra.Order.Group.Defs
import Mathlib.Data.List.Induction
import Mathlib.Data.List.TakeWhile

/-! Two pointers over a sorted list: the elements from the left one to the right one are those that
are not too far apart. -/

namespace Sweep
set_option autoImplicit true

variable {α K : Type}

/-- The right pointer moves on to an element, and the left one follows. -/
def step (far : α → α → Bool) (s : List α × Nat) (t : α) : List α × Nat :=
  let between := (s.1 ++ [t]).dropWhile (far t)
  (between, max s.2 between.length)

def most (far : α → α → Bool) (l : List α) : Nat :=
  if l.isEmpty then 0 else (l.foldl (step far) ([], 1)).2

theorem forall_mem_dropWhile {p : α → Bool} {r : α → α → Prop} {l : List α} (hl : l.Pairwise r)
    (hp : ∀ x ∈ l, ∀ y ∈ l, r x y → p y = true → p x = true) :
    ∀ x ∈ l.dropWhile p, p x = false := by
  induction l with
  | nil =>
    intro x hx
    cases hx
  | cons a l ih =>
    obtain ⟨ha, hl⟩ := List.pairwise_cons.1 hl
    intro x hx
    rw [List.dropWhile_cons] at hx
    split at hx
    · exact ih hl (fun x hx y hy => hp x (List.mem_cons_of_mem _ hx) y (List.mem_cons_of_mem _ hy))
        x hx
    · next hfirst =>
      rcases List.mem_cons.1 hx with rfl | hx
      · exact eq_false_of_ne_true hfirst
      · rw [← Bool.not_eq_true]
        intro htrue
        exact hfirst (hp a List.mem_cons_self x (List.mem_cons_of_mem _ hx) (ha x hx) htrue)

section Window
variable [AddCommGroup K] [LinearOrder K] [IsOrderedAddMonoid K] (key : α → K) (width : K)

/-- The elements of a closed interval. -/
def window (a : K) (x : α) : Bool := decide (a ≤ key x ∧ key x ≤ a + width)

variable {key width} {far : α → α → Bool} {l : List α} {s : List α × Nat} {t : α}

def Measures (key : α → K) (width : K) (far : α → α → Bool) (l : List α) : Prop :=
  ∀ x ∈ l, ∀ y ∈ l, key x ≤ key y → (far y x = true ↔ width < key y - key x)

variable (key width far) in
/-- What is before the left pointer is too far from whatever comes, and no interval holds more than
the most there has been between the pointers. -/
structure Swept (l : List α) (s : List α × Nat) : Prop where
  passed : ∃ gone, l = gone ++ s.1 ∧
    ∀ x ∈ gone, ∀ k, (∀ y ∈ l, key y ≤ k) → width < k - key x
  upper : ∀ a, l.countP (window key width a) ≤ s.2
  lower : s.2 ≤ 1 ∨ ∃ a, s.2 ≤ l.countP (window key width a)

omit [IsOrderedAddMonoid K] in
theorem swept_start : Swept key width ([] : List α) ([], 1) where
  passed := ⟨[], rfl, by simp⟩
  upper _ := Nat.zero_le _
  lower := .inl le_rfl

theorem Swept.step (h : Swept key width l s)
    (hsorted : (l ++ [t]).Pairwise (fun x y => key x ≤ key y))
    (hfar : Measures key width far (l ++ [t])) :
    Swept key width (l ++ [t]) (step far s t) := by
  obtain ⟨gone, hl, hgone⟩ := h.passed
  have hlast : ∀ x ∈ l, key x ≤ key t := fun x hx =>
    (List.pairwise_append.1 hsorted).2.2 x hx t (List.mem_singleton_self t)
  have hle : ∀ x ∈ l ++ [t], key x ≤ key t := by
    intro x hx
    rcases List.mem_append.1 hx with hx | hx
    · exact hlast x hx
    · rw [List.mem_singleton.1 hx]
  have hfart : ∀ x ∈ l ++ [t], (far t x = true ↔ width < key t - key x) := fun x hx =>
    hfar x hx t (List.mem_append_right _ (List.mem_singleton_self t)) (hle x hx)
  have hsub : ∀ x ∈ s.1 ++ [t], x ∈ l ++ [t] := by
    intro x hx
    rw [hl, List.append_assoc]
    exact List.mem_append_right _ hx
  have hsortedBetween : (s.1 ++ [t]).Pairwise (fun x y => key x ≤ key y) := by
    rw [hl, List.append_assoc] at hsorted
    exact (List.pairwise_append.1 hsorted).2.1
  have hclose : ∀ x ∈ (s.1 ++ [t]).dropWhile (far t), key t - key x ≤ width := by
    intro x hx
    have hfalse := forall_mem_dropWhile (p := far t) hsortedBetween
      (fun x hx y hy hxy hy' => (hfart x (hsub x hx)).2
        (lt_of_lt_of_le ((hfart y (hsub y hy)).1 hy') (sub_le_sub_left hxy _))) x hx
    rw [← not_lt, ← hfart x (hsub x ((List.dropWhile_sublist _).subset hx)), hfalse]
    exact Bool.false_ne_true
  have hsplit : l ++ [t] = (gone ++ (s.1 ++ [t]).takeWhile (far t)) ++
      (s.1 ++ [t]).dropWhile (far t) := by
    rw [List.append_assoc, List.takeWhile_append_dropWhile, hl, List.append_assoc]
  have hpassed : ∀ x ∈ gone ++ (s.1 ++ [t]).takeWhile (far t), ∀ k, key t ≤ k →
      width < k - key x := by
    intro x hx k hk
    rcases List.mem_append.1 hx with hx | hx
    · exact hgone x hx k fun y hy => (hlast y hy).trans hk
    · have htrue := List.mem_takeWhile_imp hx
      have hmem := hsub x ((List.takeWhile_sublist _).subset hx)
      exact lt_of_lt_of_le ((hfart x hmem).1 htrue) (sub_le_sub_right hk _)
  constructor
  · exact ⟨_, hsplit, fun x hx k hk => hpassed x hx k
      (hk t (List.mem_append_right _ (List.mem_singleton_self t)))⟩
  · intro a
    cases ht : window key width a t with
    | true =>
      -- the elements of an interval that holds the new one are all between the pointers
      have hnone : (gone ++ (s.1 ++ [t]).takeWhile (far t)).countP (window key width a) = 0 := by
        rw [List.countP_eq_zero]
        intro x hx hin
        have hfarther := hpassed x hx (key t) le_rfl
        have hbounds := of_decide_eq_true ht
        have hstart := of_decide_eq_true hin
        apply not_le_of_gt hfarther
        rw [sub_le_iff_le_add']
        exact hbounds.2.trans (add_le_add_left hstart.1 _)
      rw [hsplit, List.countP_append, hnone, Nat.zero_add]
      exact List.countP_le_length.trans (le_max_right _ _)
    | false =>
      rw [List.countP_append, List.countP_singleton, ht]
      exact (h.upper a).trans (le_max_left _ _)
  · rcases le_total s.2 ((s.1 ++ [t]).dropWhile (far t)).length with hmax | hmax
    · right
      refine ⟨key t - width, ?_⟩
      have hall : ((s.1 ++ [t]).dropWhile (far t)).countP (window key width (key t - width)) =
          ((s.1 ++ [t]).dropWhile (far t)).length := by
        rw [List.countP_eq_length]
        intro x hx
        apply decide_eq_true
        rw [sub_add_cancel]
        exact ⟨sub_le_comm.1 (hclose x hx),
          hle x (hsub x ((List.dropWhile_sublist _).subset hx))⟩
      rw [Sweep.step, max_eq_right hmax, hsplit, List.countP_append, hall]
      exact Nat.le_add_left _ _
    · rw [Sweep.step, max_eq_left hmax]
      rcases h.lower with hone | ⟨a, ha⟩
      · exact .inl hone
      · refine .inr ⟨a, ha.trans ?_⟩
        rw [List.countP_append]
        exact Nat.le_add_right _ _

theorem swept (hsorted : l.Pairwise (fun x y => key x ≤ key y))
    (hfar : Measures key width far l) : Swept key width l (l.foldl (Sweep.step far) ([], 1)) := by
  induction l using List.reverseRecOn with
  | nil => exact swept_start
  | append_singleton l t ih =>
    rw [List.foldl_append]
    exact (ih (List.pairwise_append.1 hsorted).1 fun x hx y hy =>
      hfar x (List.mem_append_left _ hx) y (List.mem_append_left _ hy)).step hsorted hfar

variable (key width far) in
/-- The most elements of any closed interval of the width. -/
theorem most_spec (hwidth : 0 ≤ width) (hsorted : l.Pairwise (fun x y => key x ≤ key y))
    (hfar : Measures key width far l) :
    (∀ a, l.countP (window key width a) ≤ most far l) ∧
      ∃ a, l.countP (window key width a) = most far l := by
  have hswept := swept hsorted hfar
  cases l with
  | nil => exact ⟨fun _ => Nat.zero_le _, 0, rfl⟩
  | cons x l =>
    rw [most, List.isEmpty_cons, if_neg Bool.false_ne_true]
    refine ⟨hswept.upper, ?_⟩
    rcases hswept.lower with hone | ⟨a, ha⟩
    · refine ⟨key x, le_antisymm (hswept.upper _) (hone.trans ?_)⟩
      have hself : window key width (key x) x = true :=
        decide_eq_true ⟨le_rfl, le_add_of_nonneg_right hwidth⟩
      rw [List.countP_cons_of_pos hself]
      exact Nat.le_add_left _ _
    · exact ⟨a, le_antisymm (hswept.upper a) ha⟩

end Window
end Sweep
