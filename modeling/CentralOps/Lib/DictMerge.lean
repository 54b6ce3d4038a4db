import CentralOps.Lib.Dict

namespace Assoc
set_option autoImplicit true

variable [DecidableEq α]

theorem set_comm {l : List (α × β)} (hk : k ∈ l.map Prod.fst) (hj : j ≠ k) (v w : β) :
    set j w (set k v l) = set k v (set j w l) := by
  induction l with
  | nil => cases hk
  | cons p l ih =>
    by_cases hp : p.1 = k
    · simp [set, hp, Ne.symm hj]
    · have hl : k ∈ l.map Prod.fst := (List.mem_cons.1 hk).resolve_left fun he => hp he.symm
      by_cases hpj : p.1 = j
      · simp [set, hpj, hj]
      · simp [set, hp, hpj, ih hl]

theorem erase_cons (k : α) (p : α × β) (l : List (α × β)) :
    erase k (p :: l) = if p.1 = k then erase k l else p :: erase k l := by
  by_cases hp : p.1 = k <;> simp [erase, hp]

theorem erase_set_self (k : α) (v : β) (l : List (α × β)) : erase k (set k v l) = erase k l := by
  induction l with
  | nil => simp [set, erase]
  | cons p l ih => by_cases hp : p.1 = k <;> simp [set, erase_cons, hp, ih]

theorem erase_set_comm (h : j ≠ k) (v : β) (l : List (α × β)) :
    erase j (set k v l) = set k v (erase j l) := by
  induction l with
  | nil => simp [set, erase, Ne.symm h]
  | cons p l ih =>
    by_cases hp : p.1 = k
    · simp [set, erase_cons, hp, Ne.symm h]
    · by_cases hj : p.1 = j
      · simp [set, erase_cons, hj, h, ih]
      · simp [set, erase_cons, hp, hj, ih]

end Assoc

namespace Dict
set_option autoImplicit true

variable {α β : Type}

theorem ext_entries {d d' : Dict α β} (h : d.entries = d'.entries) : d = d' := by
  cases d
  cases d'
  cases h
  rfl

variable [DecidableEq α] (op : β → β → β)

/-- `d[k] = op(d[k], x)`, and `d[k] = x` where `k` is not there yet. -/
def accumulate (d : Dict α β) (k : α) (x : β) : Dict α β :=
  d.set k ((d.get? k).elim x (op · x))

/-- Accumulating every entry of another dictionary. -/
def merge (d d' : Dict α β) : Dict α β :=
  d'.entries.foldl (fun d e => d.accumulate op e.1 e.2) d

theorem push_eq {γ : Type} (d : Dict α (List γ)) (k : α) (x : γ) :
    d.push k x = d.accumulate (· ++ ·) k [x] := by
  rw [push, accumulate, bucket]
  cases d.get? k with
  | none => rfl
  | some xs => rfl

theorem bump_eq (d : Dict α Nat) (k : α) (n : Nat) : d.bump k n = d.accumulate (· + ·) k n := by
  rw [bump, accumulate]
  cases d.get? k with
  | none => rw [Option.getD_none, Nat.zero_add, Option.elim_none]
  | some m => rfl

@[simp] theorem merge_empty (d : Dict α β) : d.merge op .empty = d := rfl

variable {op}

theorem get?_accumulate_self (d : Dict α β) (k : α) (x : β) :
    (d.accumulate op k x).get? k = some ((d.get? k).elim x (op · x)) :=
  get?_set_self d k _

theorem get?_accumulate_ne (d : Dict α β) (h : j ≠ k) (x : β) :
    (d.accumulate op k x).get? j = d.get? j :=
  get?_set_ne d h _

theorem accumulate_twice (hop : ∀ a b c, op (op a b) c = op a (op b c)) (d : Dict α β) (k : α)
    (x y : β) : (d.accumulate op k x).accumulate op k y = d.accumulate op k (op x y) := by
  apply ext_entries
  rw [accumulate, get?_accumulate_self, accumulate, accumulate]
  cases d.get? k with
  | none => exact Assoc.set_set_self k _ _ _
  | some v =>
    simp only [Option.elim_some, hop]
    exact Assoc.set_set_self k _ _ _

theorem accumulate_comm {d : Dict α β} (hk : d.get? k ≠ none) (hj : j ≠ k) (x y : β) :
    (d.accumulate op k x).accumulate op j y = (d.accumulate op j y).accumulate op k x := by
  have hmem : k ∈ d.entries.map Prod.fst := List.mem_toFinset.1 (d.mem_keys.2 hk)
  apply ext_entries
  rw [accumulate, get?_accumulate_ne d hj, accumulate, accumulate, get?_accumulate_ne d (Ne.symm hj),
    accumulate]
  exact Assoc.set_comm hmem hj _ _

theorem get?_accumulate_ne_none {d : Dict α β} (h : d.get? k ≠ none) (j : α) (x : β) :
    (d.accumulate op j x).get? k ≠ none := by
  by_cases hj : k = j
  · subst hj
    rw [get?_accumulate_self]
    exact Option.some_ne_none _
  · rw [get?_accumulate_ne d hj]
    exact h

theorem foldl_accumulate_comm {l : List (α × β)} (hl : k ∉ l.map Prod.fst) {d : Dict α β}
    (hk : d.get? k ≠ none) (x : β) :
    l.foldl (fun d e => d.accumulate op e.1 e.2) (d.accumulate op k x) =
      (l.foldl (fun d e => d.accumulate op e.1 e.2) d).accumulate op k x := by
  induction l generalizing d with
  | nil => rfl
  | cons e l ih =>
    rw [List.map_cons, List.mem_cons, not_or] at hl
    rw [List.foldl_cons, List.foldl_cons, accumulate_comm hk (Ne.symm hl.1)]
    exact ih hl.2 (get?_accumulate_ne_none hk _ _)

theorem foldl_set (hop : ∀ a b c, op (op a b) c = op a (op b c)) {l : List (α × β)}
    (hl : (l.map Prod.fst).Nodup) (d : Dict α β) (k : α) (x : β) :
    (Assoc.set k ((l.lookup k).elim x (op · x)) l).foldl (fun d e => d.accumulate op e.1 e.2) d =
      (l.foldl (fun d e => d.accumulate op e.1 e.2) d).accumulate op k x := by
  induction l generalizing d with
  | nil => rfl
  | cons e l ih =>
    obtain ⟨hnew, hl'⟩ := List.nodup_cons.1 hl
    rw [Assoc.lookup_cons_eq, Assoc.set]
    by_cases he : e.1 = k
    · subst he
      rw [if_pos rfl, if_pos rfl, List.foldl_cons, List.foldl_cons, Option.elim_some,
        ← accumulate_twice hop]
      apply foldl_accumulate_comm hnew
      rw [get?_accumulate_self]
      exact Option.some_ne_none _
    · rw [if_neg he, if_neg he, List.foldl_cons, List.foldl_cons]
      exact ih hl' _

theorem merge_accumulate (hop : ∀ a b c, op (op a b) c = op a (op b c)) (d d' : Dict α β) (k : α)
    (x : β) : d.merge op (d'.accumulate op k x) = (d.merge op d').accumulate op k x :=
  foldl_set hop d'.nodup d k x

theorem merge_push {γ : Type} (d d' : Dict α (List γ)) (k : α) (x : γ) :
    d.merge (· ++ ·) (d'.push k x) = (d.merge (· ++ ·) d').push k x := by
  rw [push_eq, push_eq]
  exact merge_accumulate List.append_assoc d d' k [x]

theorem merge_bump (d d' : Dict α Nat) (k : α) (n : Nat) :
    d.merge (· + ·) (d'.bump k n) = (d.merge (· + ·) d').bump k n := by
  rw [bump_eq, bump_eq]
  exact merge_accumulate Nat.add_assoc d d' k n

end Dict
