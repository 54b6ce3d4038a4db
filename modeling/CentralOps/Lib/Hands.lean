import Mathlib.Data.List.Basic

set_option autoImplicit true

/-- Items that owners have in their hands, in the order in which they were taken. -/
abbrev Hands (ι α : Type) := List (ι × α)

namespace Hands

variable {ι α : Type}

def items (hands : Hands ι α) : List α := hands.map Prod.snd

def give (i : ι) (as : List α) (hands : Hands ι α) : Hands ι α :=
  hands ++ as.map (fun a => (i, a))

@[simp] theorem items_give (i : ι) (as : List α) (hands : Hands ι α) :
    (hands.give i as).items = hands.items ++ as := by
  simp [items, give, Function.comp_def]

variable [DecidableEq ι]

def of (i : ι) (hands : Hands ι α) : List α := (hands.filter (fun p => p.1 = i)).map Prod.snd

def empty (i : ι) (hands : Hands ι α) : Hands ι α := hands.filter (fun p => p.1 ≠ i)

variable {hands : Hands ι α}

@[simp] theorem of_give_self (i : ι) (as : List α) (hands : Hands ι α) :
    (hands.give i as).of i = hands.of i ++ as := by
  simp [of, give, List.filter_map, Function.comp_def]

theorem of_give_ne (h : j ≠ i) (as : List α) (hands : Hands ι α) :
    (hands.give i as).of j = hands.of j := by
  have hij : ¬ i = j := fun hij => h hij.symm
  simp [of, give, List.filter_map, Function.comp_def, hij]

@[simp] theorem of_empty_self (i : ι) (hands : Hands ι α) : (hands.empty i).of i = [] := by
  rw [of, empty, List.filter_filter, List.map_eq_nil_iff, List.filter_eq_nil_iff]
  intro p _
  simp

theorem of_empty_ne (h : j ≠ i) (hands : Hands ι α) : (hands.empty i).of j = hands.of j := by
  rw [of, of, empty, List.filter_filter]
  congr 1
  apply List.filter_congr
  intro p _
  by_cases hp : p.1 = j
  · simp [hp, h]
  · simp [hp]

theorem items_perm (i : ι) (hands : Hands ι α) :
    hands.items.Perm (hands.of i ++ (hands.empty i).items) := by
  have h := List.filter_append_perm (fun p : ι × α => decide (p.1 = i)) hands
  have hnot : hands.filter (fun p => !decide (p.1 = i)) = hands.empty i := by
    apply List.filter_congr
    intro p _
    simp
  rw [hnot] at h
  have hmap := (h.map Prod.snd).symm
  rw [List.map_append] at hmap
  exact hmap

/-- One owner gives the first of its items away. -/
def less (i : ι) (n : Nat) (hands : Hands ι α) : Hands ι α :=
  (hands.empty i).give i ((hands.of i).drop n)

@[simp] theorem of_less_self (i : ι) (n : Nat) (hands : Hands ι α) :
    (hands.less i n).of i = (hands.of i).drop n := by
  rw [less, of_give_self, of_empty_self, List.nil_append]

theorem of_less_ne (h : j ≠ i) (n : Nat) (hands : Hands ι α) :
    (hands.less i n).of j = hands.of j := by
  rw [less, of_give_ne h, of_empty_ne h]

theorem items_less_perm (i : ι) (n : Nat) (hands : Hands ι α) :
    hands.items.Perm ((hands.of i).take n ++ (hands.less i n).items) := by
  have h := items_perm i hands
  rw [less, items_give]
  rw [← List.take_append_drop n (hands.of i), List.append_assoc] at h
  exact h.trans ((List.perm_append_comm).append_left _)

theorem mem_items_of_less (h : a ∈ (hands.less i n).items) : a ∈ hands.items :=
  (items_less_perm i n hands).mem_iff.2 (List.mem_append_right _ h)

theorem mem_items_of (h : a ∈ hands.of i) : a ∈ hands.items :=
  (items_perm i hands).mem_iff.2 (List.mem_append_left _ h)

theorem eq_nil (h : ∀ i, hands.of i = []) : hands = [] := by
  cases hands with
  | nil => rfl
  | cons p hands =>
    have hp := h p.1
    rw [of, List.filter_cons_of_pos (by simp), List.map_cons] at hp
    cases hp

end Hands
