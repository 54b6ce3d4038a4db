import Mathlib.Data.List.Induction

set_option autoImplicit true

/-- A binary trie. A child that was never made is `absent`. -/
inductive BitTrie (β : Type) where
  | absent
  | node (value : Option β) (zero one : BitTrie β)

namespace BitTrie

def empty : BitTrie β := .node none .absent .absent

def value? : BitTrie β → Option β
  | .absent => none
  | .node v _ _ => v

def child : BitTrie β → Bool → BitTrie β
  | .absent, _ => .absent
  | .node _ zero one, b => if b then one else zero

def setValue (v : β) : BitTrie β → BitTrie β
  | .absent => .node (some v) .absent .absent
  | .node _ zero one => .node (some v) zero one

def setChild (t : BitTrie β) (b : Bool) (c : BitTrie β) : BitTrie β :=
  match t with
  | .absent => if b then .node none .absent c else .node none c .absent
  | .node v zero one => if b then .node v zero c else .node v c one

def insert (v : β) : List Bool → BitTrie β → BitTrie β
  | [], t => t.setValue v
  | b :: bs, t => t.setChild b (insert v bs (t.child b))

/-- The value at the end of a path. -/
def get : List Bool → BitTrie β → Option β
  | [], t => t.value?
  | b :: bs, t => get bs (t.child b)

/-- The walk down a key, with the last value met. -/
def descend (best : Option β) : List Bool → BitTrie β → Option β
  | [], _ => best
  | b :: bs, t =>
    match t.child b with
    | .absent => best
    | t' => descend (t'.value?.or best) bs t'

def search (key : List Bool) (t : BitTrie β) : Option β := descend t.value? key t

@[simp] theorem value?_setValue (v : β) (t : BitTrie β) : (t.setValue v).value? = some v := by
  cases t <;> rfl

@[simp] theorem child_setValue (v : β) (t : BitTrie β) (b : Bool) :
    (t.setValue v).child b = t.child b := by
  cases t with
  | absent => cases b <;> rfl
  | node => rfl

@[simp] theorem value?_setChild (t : BitTrie β) (b : Bool) (c : BitTrie β) :
    (t.setChild b c).value? = t.value? := by
  cases t <;> cases b <;> rfl

@[simp] theorem child_setChild (t : BitTrie β) (b b' : Bool) (c : BitTrie β) :
    (t.setChild b c).child b' = if b' = b then c else t.child b' := by
  cases t <;> cases b <;> cases b' <;> rfl

@[simp] theorem get_absent (p : List Bool) : get p (.absent : BitTrie β) = none := by
  induction p with
  | nil => rfl
  | cons b p ih => exact ih

@[simp] theorem get_empty (p : List Bool) : get p (empty : BitTrie β) = none := by
  cases p with
  | nil => rfl
  | cons b p => cases b <;> exact get_absent p

theorem get_insert (v : β) (p q : List Bool) (t : BitTrie β) :
    get q (insert v p t) = if q = p then some v else get q t := by
  induction p generalizing q t with
  | nil =>
    cases q with
    | nil => exact value?_setValue v t
    | cons c q =>
      rw [insert, get, child_setValue]
      rfl
  | cons b p ih =>
    cases q with
    | nil => exact value?_setChild t b _
    | cons c q =>
      rw [insert, get, child_setChild]
      by_cases hc : c = b
      · subst hc
        rw [if_pos rfl, ih]
        simp only [List.cons.injEq, true_and]
        rfl
      · rw [if_neg hc, if_neg fun h => hc (List.cons.inj h).1]
        rfl

theorem descend_absent (best : Option β) (key : List Bool) :
    descend best key .absent = best := by
  cases key with
  | nil => rfl
  | cons b key => rfl

theorem descend_cons (best : Option β) (b : Bool) (key : List Bool) (t : BitTrie β) :
    descend best (b :: key) t = descend ((t.child b).value?.or best) key (t.child b) := by
  rw [descend]
  cases h : t.child b with
  | absent => exact (descend_absent best key).symm
  | node => rfl

theorem descend_eq (best : Option β) (key : List Bool) (t : BitTrie β) :
    descend best key t = (descend none key t).or best := by
  induction key generalizing best t with
  | nil => rfl
  | cons b key ih =>
    rw [descend_cons, descend_cons, ih, ih ((t.child b).value?.or none), Option.or_none,
      Option.or_assoc]

theorem search_cons (b : Bool) (key : List Bool) (t : BitTrie β) :
    search (b :: key) t = (search key (t.child b)).or t.value? := by
  rw [search, search, descend_cons, descend_eq, descend_eq (t.child b).value?, Option.or_assoc]

/-- A walk meets nothing where no path on its way holds a value. -/
theorem search_eq_none_iff (key : List Bool) (t : BitTrie β) :
    search key t = none ↔ ∀ p, p <+: key → get p t = none := by
  induction key generalizing t with
  | nil =>
    constructor
    · intro h p hp
      rw [List.prefix_nil.1 hp]
      exact h
    · intro h
      exact h [] List.prefix_rfl
  | cons b key ih =>
    rw [search_cons, Option.or_eq_none_iff, ih]
    constructor
    · intro h p hp
      cases p with
      | nil => exact h.2
      | cons c p =>
        obtain ⟨rfl, hkey⟩ := List.cons_prefix_cons.1 hp
        exact h.1 p hkey
    · intro h
      constructor
      · intro p hp
        exact h (b :: p) (List.cons_prefix_cons.2 ⟨rfl, hp⟩)
      · exact h [] List.nil_prefix

/-- A walk ends with the value of the longest path on its way that holds one. -/
theorem search_eq_some_iff (key : List Bool) (t : BitTrie β) (v : β) :
    search key t = some v ↔
      ∃ p, p <+: key ∧ get p t = some v ∧
        ∀ q, q <+: key → p.length < q.length → get q t = none := by
  induction key generalizing t with
  | nil =>
    constructor
    · intro h
      refine ⟨[], List.prefix_rfl, h, ?_⟩
      intro q hq hlt
      rw [List.prefix_nil.1 hq] at hlt
      exact absurd hlt (Nat.lt_irrefl _)
    · intro h
      obtain ⟨p, hp, hget, _⟩ := h
      rw [List.prefix_nil.1 hp] at hget
      exact hget
  | cons b key ih =>
    rw [search_cons, Option.or_eq_some_iff, ih, search_eq_none_iff]
    constructor
    · intro h
      rcases h with ⟨p, hp, hget, hlong⟩ | ⟨hnone, hvalue⟩
      · refine ⟨b :: p, List.cons_prefix_cons.2 ⟨rfl, hp⟩, hget, ?_⟩
        intro q hq hlt
        cases q with
        | nil => exact absurd hlt (Nat.not_lt_zero _)
        | cons c q =>
          obtain ⟨rfl, hkey⟩ := List.cons_prefix_cons.1 hq
          exact hlong q hkey (Nat.lt_of_succ_lt_succ hlt)
      · refine ⟨[], List.nil_prefix, hvalue, ?_⟩
        intro q hq hlt
        cases q with
        | nil => exact absurd hlt (Nat.lt_irrefl _)
        | cons c q =>
          obtain ⟨rfl, hkey⟩ := List.cons_prefix_cons.1 hq
          exact hnone q hkey
    · intro h
      obtain ⟨p, hp, hget, hlong⟩ := h
      cases p with
      | nil =>
        right
        refine ⟨?_, hget⟩
        intro q hq
        exact hlong (b :: q) (List.cons_prefix_cons.2 ⟨rfl, hq⟩) (Nat.succ_pos _)
      | cons c p =>
        obtain ⟨rfl, hkey⟩ := List.cons_prefix_cons.1 hp
        left
        refine ⟨p, hkey, hget, ?_⟩
        intro q hq hlt
        exact hlong (c :: q) (List.cons_prefix_cons.2 ⟨rfl, hq⟩) (Nat.succ_lt_succ hlt)

section Entries

def insertAll (t : BitTrie β) (entries : List (List Bool × β)) : BitTrie β :=
  entries.foldl (fun t e => t.insert e.2 e.1) t

theorem get_insertAll_append (entries : List (List Bool × β)) (e : List Bool × β) (p : List Bool)
    (t : BitTrie β) :
    get p (t.insertAll (entries ++ [e])) =
      if p = e.1 then some e.2 else get p (t.insertAll entries) := by
  rw [insertAll, List.foldl_append]
  exact get_insert e.2 e.1 p _

/-- A path holds what the last entry for it brought. -/
theorem get_insertAll_eq_some_iff (entries : List (List Bool × β)) (p : List Bool) (v : β) :
    get p (empty.insertAll entries) = some v ↔
      ∃ before after, entries = before ++ (p, v) :: after ∧ ∀ e ∈ after, e.1 ≠ p := by
  induction entries using List.reverseRecOn with
  | nil => simp [insertAll]
  | append_singleton entries e ih =>
    rw [get_insertAll_append]
    by_cases hp : p = e.1
    · rw [if_pos hp]
      constructor
      · intro h
        refine ⟨entries, [], ?_, by simp⟩
        rw [hp, ← Option.some.inj h]
      · intro h
        obtain ⟨before, after, heq, hafter⟩ := h
        rcases List.eq_nil_or_concat after with rfl | ⟨after, e', rfl⟩
        · have := (List.append_inj' heq rfl).2
          rw [List.cons.inj this |>.1]
        · rw [List.concat_eq_append, ← List.cons_append, ← List.append_assoc] at heq
          have hlast := (List.cons.inj (List.append_inj' heq rfl).2).1
          rw [hlast] at hp
          exact absurd hp.symm (hafter e' (by simp))
    · rw [if_neg hp, ih]
      constructor
      · intro h
        obtain ⟨before, after, rfl, hafter⟩ := h
        refine ⟨before, after ++ [e], by simp, ?_⟩
        intro e' he'
        rcases List.mem_append.1 he' with he' | he'
        · exact hafter e' he'
        · rw [List.mem_singleton.1 he']
          exact Ne.symm hp
      · intro h
        obtain ⟨before, after, heq, hafter⟩ := h
        rcases List.eq_nil_or_concat after with rfl | ⟨after, e', rfl⟩
        · have hlast := (List.cons.inj (List.append_inj' heq rfl).2).1
          rw [hlast] at hp
          exact absurd rfl hp
        · rw [List.concat_eq_append, ← List.cons_append, ← List.append_assoc] at heq
          refine ⟨before, after, (List.append_inj' heq rfl).1, ?_⟩
          intro e'' he''
          exact hafter e'' (by simp [he''])

theorem get_insertAll_eq_none_iff (entries : List (List Bool × β)) (p : List Bool) :
    get p (empty.insertAll entries) = none ↔ ∀ e ∈ entries, e.1 ≠ p := by
  induction entries using List.reverseRecOn with
  | nil => simp [insertAll]
  | append_singleton entries e ih =>
    rw [get_insertAll_append, List.forall_mem_append, ← ih]
    by_cases hp : p = e.1 <;> simp [hp, eq_comm]

/-- The last among the entries of the greatest length that lead to a key. -/
def LongestPrefix (entries : List (List Bool × β)) (key : List Bool) (v : β) : Prop :=
  ∃ before p after, entries = before ++ (p, v) :: after ∧ p <+: key ∧
    (∀ e ∈ before, e.1 <+: key → e.1.length ≤ p.length) ∧
    ∀ e ∈ after, e.1 <+: key → e.1.length < p.length

theorem search_insertAll_eq_some_iff (entries : List (List Bool × β)) (key : List Bool) (v : β) :
    search key (empty.insertAll entries) = some v ↔ LongestPrefix entries key v := by
  simp only [search_eq_some_iff, get_insertAll_eq_some_iff, get_insertAll_eq_none_iff]
  constructor
  · intro h
    obtain ⟨p, hp, ⟨before, after, heq, hafter⟩, hlong⟩ := h
    have hle : ∀ e ∈ entries, e.1 <+: key → e.1.length ≤ p.length := by
      intro e he hkey
      by_contra hlt
      exact hlong e.1 hkey (Nat.lt_of_not_le hlt) e he rfl
    refine ⟨before, p, after, heq, hp, ?_, ?_⟩
    · intro e he
      exact hle e (heq ▸ List.mem_append_left _ he)
    · intro e he hkey
      apply Nat.lt_of_le_of_ne (hle e (heq ▸ List.mem_append_right _ (List.mem_cons_of_mem _ he)) hkey)
      intro hlen
      exact hafter e he ((List.prefix_of_prefix_length_le hkey hp (Nat.le_of_eq hlen)).eq_of_length hlen)
  · intro h
    obtain ⟨before, p, after, heq, hp, hbefore, hafter⟩ := h
    refine ⟨p, hp, ⟨before, after, heq, ?_⟩, ?_⟩
    · intro e he hsame
      have hlt := hafter e he (hsame ▸ hp)
      rw [hsame] at hlt
      exact Nat.lt_irrefl _ hlt
    · intro q hq hlt e he hsame
      subst hsame
      rw [heq] at he
      rcases List.mem_append.1 he with he | he
      · exact Nat.not_le_of_lt hlt (hbefore e he hq)
      · rcases List.mem_cons.1 he with rfl | he
        · exact Nat.lt_irrefl _ hlt
        · exact Nat.lt_asymm hlt (hafter e he hq)

theorem search_insertAll_eq_none_iff (entries : List (List Bool × β)) (key : List Bool) :
    search key (empty.insertAll entries) = none ↔ ∀ e ∈ entries, ¬ e.1 <+: key := by
  simp only [search_eq_none_iff, get_insertAll_eq_none_iff]
  constructor
  · intro h e he hkey
    exact h e.1 hkey e he rfl
  · intro h p hp e he hsame
    exact h e he (hsame ▸ hp)

end Entries
end BitTrie
