import Mathlib.Data.List.Sort
import Mathlib.Data.String.Basic
import CentralOps.Lib.Dict

namespace Assoc
set_option autoImplicit true

variable [LinearOrder κ]

def KeyLe (a b : κ × β) : Prop := a.1 ≤ b.1

instance : DecidableRel (KeyLe (κ := κ) (β := β)) := fun a b => inferInstanceAs (Decidable (a.1 ≤ b.1))

instance : Std.Total (KeyLe (κ := κ) (β := β)) := ⟨fun a b => le_total a.1 b.1⟩

instance : IsTrans (κ × β) KeyLe := ⟨fun _ _ _ hab hbc => le_trans hab hbc⟩

/-- The pairs in the order of their keys. -/
def byKey (l : List (κ × β)) : List (κ × β) := l.insertionSort KeyLe

theorem byKey_perm (l : List (κ × β)) : (byKey l).Perm l := List.perm_insertionSort KeyLe l

theorem byKey_sorted (l : List (κ × β)) : (byKey l).Pairwise KeyLe :=
  List.pairwise_insertionSort KeyLe l

theorem byKey_of_sorted {l : List (κ × β)} (h : l.Pairwise KeyLe) : byKey l = l :=
  h.insertionSort_eq

@[simp] theorem byKey_byKey (l : List (κ × β)) : byKey (byKey l) = byKey l :=
  byKey_of_sorted (byKey_sorted l)

theorem orderedInsert_of_forall {a : κ × β} {l : List (κ × β)} (h : ∀ b ∈ l, KeyLe a b) :
    l.orderedInsert KeyLe a = a :: l := by
  cases l with
  | nil => rfl
  | cons b l => exact List.orderedInsert_cons_of_le _ l (h b List.mem_cons_self)

theorem filter_orderedInsert (p : κ × β → Bool) (a : κ × β) {l : List (κ × β)}
    (h : l.Pairwise KeyLe) :
    (l.orderedInsert KeyLe a).filter p =
      if p a then (l.filter p).orderedInsert KeyLe a else l.filter p := by
  induction l with
  | nil => exact List.filter_cons
  | cons b l ih =>
    obtain ⟨hb, hl⟩ := List.pairwise_cons.1 h
    by_cases hab : KeyLe a b
    · have hle : ∀ c ∈ (b :: l).filter p, KeyLe a c := by
        intro c hc
        obtain rfl | hc := List.mem_cons.1 (List.mem_filter.1 hc).1
        · exact hab
        · exact le_trans hab (hb c hc)
      rw [List.orderedInsert_cons_of_le _ l hab, List.filter_cons, orderedInsert_of_forall hle]
    · rw [List.orderedInsert_of_not_le KeyLe l hab, List.filter_cons, List.filter_cons, ih hl]
      by_cases hp : p b = true
      · rw [if_pos hp, if_pos hp, List.orderedInsert_of_not_le KeyLe _ hab]
        split <;> rfl
      · rw [if_neg hp, if_neg hp]

theorem filter_byKey (p : κ × β → Bool) (l : List (κ × β)) :
    (byKey l).filter p = byKey (l.filter p) := by
  induction l with
  | nil => rfl
  | cons a l ih =>
    change ((byKey l).orderedInsert KeyLe a).filter p = _
    rw [filter_orderedInsert p a (byKey_sorted l), ih, List.filter_cons]
    split <;> rfl

theorem byKey_set_inj {l l' : List (κ × β)} (hl : k ∉ l.map Prod.fst)
    (hl' : k ∉ l'.map Prod.fst) (h : byKey (set k v l) = byKey (set k v' l')) :
    v = v' ∧ byKey l = byKey l' := by
  have hother : ∀ {m : List (κ × β)} {w : β}, k ∉ m.map Prod.fst →
      (set k w m).filter (fun q => q.1 ≠ k) = m ∧
        (set k w m).filter (fun q => q.1 = k) = [(k, w)] := by
    intro m w hm
    have hne : ∀ q ∈ m, q.1 ≠ k := fun q hq hk => hm (List.mem_map.2 ⟨q, hq, hk⟩)
    rw [set_of_notMem hm, List.filter_append, List.filter_append]
    constructor
    · rw [List.filter_eq_self.2 fun q hq => decide_eq_true (hne q hq)]
      simp
    · rw [List.filter_eq_nil_iff.2 fun q hq => by simpa using hne q hq]
      simp
  constructor
  · have hkey := congrArg (List.filter fun q => q.1 = k) h
    rw [filter_byKey, filter_byKey, (hother hl).2, (hother hl').2] at hkey
    exact congrArg Prod.snd (List.cons.inj hkey).1
  · have hrest := congrArg (List.filter fun q => q.1 ≠ k) h
    rwa [filter_byKey, filter_byKey, (hother hl).1, (hother hl').1] at hrest

end Assoc
