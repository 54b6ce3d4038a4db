import Mathlib.Algebra.GroupWithZero.Nat
import Mathlib.Data.List.Nodup
import Mathlib.Data.List.Induction
import Mathlib.Data.Finset.Card
import Mathlib.Algebra.BigOperators.Group.List.Basic

namespace Assoc
set_option autoImplicit true

variable [DecidableEq α]

/-- `d[k] = v` on an insertion-ordered association list. -/
def set (k : α) (v : β) : List (α × β) → List (α × β)
  | [] => [(k, v)]
  | p :: l => if p.1 = k then (k, v) :: l else p :: set k v l

/-- `d.pop(k, None)`. -/
def erase (k : α) (l : List (α × β)) : List (α × β) := l.filter (fun p => p.1 ≠ k)

theorem lookup_cons_eq (k : α) (p : α × β) (l : List (α × β)) :
    (p :: l).lookup k = if p.1 = k then some p.2 else l.lookup k := by
  obtain ⟨j, w⟩ := p
  rw [List.lookup_cons]
  by_cases h : j = k
  · subst h; simp
  · have hk : (k == j) = false := by simpa using Ne.symm h
    simp [h, hk]

@[simp] theorem lookup_set_self (k : α) (v : β) (l : List (α × β)) :
    (set k v l).lookup k = some v := by
  induction l with
  | nil => simp [set]
  | cons p l ih => by_cases h : p.1 = k <;> simp [set, h, lookup_cons_eq, ih]

theorem lookup_set_ne (h : j ≠ k) (v : β) (l : List (α × β)) :
    (set k v l).lookup j = l.lookup j := by
  have hk : k ≠ j := Ne.symm h
  induction l with
  | nil => simp [set, lookup_cons_eq, hk]
  | cons p l ih =>
    by_cases hp : p.1 = k
    · simp [set, hp, lookup_cons_eq, hk]
    · simp [set, hp, lookup_cons_eq, ih]

@[simp] theorem lookup_erase_self (k : α) (l : List (α × β)) :
    (erase k l).lookup k = none := by
  rw [List.lookup_eq_none_iff]
  intro p hp
  have hne : p.1 ≠ k := by simpa using (List.mem_filter.1 hp).2
  simpa using Ne.symm hne

theorem lookup_filter_key (q : α → Bool) (l : List (α × β)) (k : α) :
    (l.filter (fun p => q p.1)).lookup k = if q k then l.lookup k else none := by
  induction l with
  | nil => simp
  | cons p l ih =>
    by_cases hp : p.1 = k
    · subst hp
      by_cases hq : q p.1 = true <;> simp [lookup_cons_eq, hq, ih]
    · by_cases hq : q p.1 = true <;> simp [lookup_cons_eq, hq, hp, ih]

theorem lookup_erase_ne (h : j ≠ k) (l : List (α × β)) :
    (erase k l).lookup j = l.lookup j := by
  have he := lookup_filter_key (fun a => decide (a ≠ k)) l j
  simpa [erase, h] using he

theorem set_eq_self {l : List (α × β)} (h : l.lookup k = some v) : set k v l = l := by
  induction l with
  | nil => simp at h
  | cons p l ih =>
    obtain ⟨j, w⟩ := p
    rw [lookup_cons_eq] at h
    by_cases hj : j = k
    · subst hj
      simp only [if_true, Option.some.injEq] at h
      simp [set, h]
    · simp only [hj, if_false] at h
      simp [set, hj, ih h]

theorem set_set_self (k : α) (v w : β) (l : List (α × β)) : set k w (set k v l) = set k w l := by
  induction l with
  | nil => simp [set]
  | cons p l ih => by_cases hp : p.1 = k <;> simp [set, hp, ih]

theorem keys_set (k : α) (v : β) (l : List (α × β)) :
    (set k v l).map Prod.fst =
      if k ∈ l.map Prod.fst then l.map Prod.fst else l.map Prod.fst ++ [k] := by
  induction l with
  | nil => simp [set]
  | cons p l ih =>
    by_cases hp : p.1 = k
    · simp [set, hp]
    · have hk : k ≠ p.1 := fun h => hp h.symm
      simp only [set, hp, if_false, List.map_cons, ih, List.mem_cons, hk, false_or]
      split <;> simp

theorem set_of_notMem {l : List (α × β)} (h : k ∉ l.map Prod.fst) (v : β) :
    set k v l = l ++ [(k, v)] := by
  induction l with
  | nil => rfl
  | cons p l ih =>
    rw [List.map_cons, List.mem_cons, not_or] at h
    have hp : p.1 ≠ k := fun he => h.1 he.symm
    simp [set, hp, ih h.2]

theorem nodup_set (k : α) (v : β) {l : List (α × β)} (h : (l.map Prod.fst).Nodup) :
    ((set k v l).map Prod.fst).Nodup := by
  rw [keys_set]
  split
  · exact h
  · next hk => exact List.nodup_append.2 ⟨h, List.nodup_singleton k, by aesop⟩

theorem mem_of_mem_set {l : List (α × β)} {p : α × β} (h : p ∈ set k v l) :
    p = (k, v) ∨ p ∈ l := by
  induction l with
  | nil => exact .inl (List.mem_singleton.1 h)
  | cons q l ih =>
    by_cases hq : q.1 = k
    · rw [set, if_pos hq, List.mem_cons] at h
      exact h.imp_right (List.mem_cons_of_mem q)
    · rw [set, if_neg hq, List.mem_cons] at h
      obtain rfl | h := h
      · exact .inr List.mem_cons_self
      · exact (ih h).imp_right (List.mem_cons_of_mem q)

theorem mem_set_self (k : α) (v : β) (l : List (α × β)) : (k, v) ∈ set k v l := by
  induction l with
  | nil => exact List.mem_singleton_self _
  | cons q l ih =>
    rw [set]
    split
    · exact List.mem_cons_self
    · exact List.mem_cons_of_mem q ih

theorem mem_set_of_ne {l : List (α × β)} {p : α × β} (hk : p.1 ≠ k) (h : p ∈ l) : p ∈ set k v l := by
  induction l with
  | nil => cases h
  | cons q l ih =>
    rw [set]
    by_cases hq : q.1 = k
    · rw [if_pos hq]
      obtain rfl | h := List.mem_cons.1 h
      · exact absurd hq hk
      · exact List.mem_cons_of_mem _ h
    · rw [if_neg hq]
      obtain rfl | h := List.mem_cons.1 h
      · exact List.mem_cons_self
      · exact List.mem_cons_of_mem q (ih h)

theorem mem_of_lookup {l : List (α × β)} (h : l.lookup k = some v) : (k, v) ∈ l := by
  induction l with
  | nil => cases h
  | cons q l ih =>
    rw [lookup_cons_eq] at h
    by_cases hq : q.1 = k
    · rw [if_pos hq, Option.some.injEq] at h
      rw [← hq, ← h]
      exact List.mem_cons_self
    · rw [if_neg hq] at h
      exact List.mem_cons_of_mem q (ih h)

theorem lookup_of_mem {l : List (α × β)} (hnodup : (l.map Prod.fst).Nodup) (h : (k, v) ∈ l) :
    l.lookup k = some v := by
  induction l with
  | nil => cases h
  | cons q l ih =>
    obtain ⟨hnew, hnodup⟩ := List.nodup_cons.1 hnodup
    rw [lookup_cons_eq]
    obtain rfl | h := List.mem_cons.1 h
    · exact if_pos rfl
    · have hne : q.1 ≠ k := fun heq => hnew (List.mem_map.2 ⟨(k, v), h, heq.symm⟩)
      rw [if_neg hne]
      exact ih hnodup h

/-- The loop that stores what `f` finds for each element. -/
def collect (f : γ → Option (α × β)) (l : List (α × β)) (as : List γ) : List (α × β) :=
  as.foldl (fun l a =>
    match f a with
    | some p => set p.1 p.2 l
    | none => l) l

theorem mem_collect {f : γ → Option (α × β)} {as : List γ} {l : List (α × β)} {p : α × β}
    (h : p ∈ collect f l as) : p ∈ l ∨ ∃ a ∈ as, f a = some p := by
  induction as generalizing l with
  | nil => exact .inl h
  | cons a as ih =>
    rw [collect, List.foldl_cons] at h
    obtain h | ⟨b, hb, hf⟩ := ih h
    · cases ha : f a with
      | none =>
        rw [ha] at h
        exact .inl h
      | some q =>
        rw [ha] at h
        obtain rfl | h := mem_of_mem_set h
        · exact .inr ⟨a, List.mem_cons_self, ha⟩
        · exact .inl h
    · exact .inr ⟨b, List.mem_cons_of_mem a hb, hf⟩

theorem lookup_set_isSome {l : List (α × β)} (h : (l.lookup j).isSome = true) (k : α) (v : β) :
    ((set k v l).lookup j).isSome = true := by
  by_cases hj : j = k
  · rw [hj, lookup_set_self, Option.isSome_some]
  · rw [lookup_set_ne hj]
    exact h

theorem lookup_collect_isSome_of_init {f : γ → Option (α × β)} {as : List γ} {l : List (α × β)}
    (h : (l.lookup j).isSome = true) : ((collect f l as).lookup j).isSome = true := by
  induction as generalizing l with
  | nil => exact h
  | cons a as ih =>
    rw [collect, List.foldl_cons]
    apply ih
    cases f a with
    | none => exact h
    | some p => exact lookup_set_isSome h p.1 p.2

theorem lookup_collect_isSome {f : γ → Option (α × β)} {as : List γ} {l : List (α × β)}
    (ha : a ∈ as) (hf : f a = some p) : ((collect f l as).lookup p.1).isSome = true := by
  induction as generalizing l with
  | nil => cases ha
  | cons b as ih =>
    rw [collect, List.foldl_cons]
    obtain rfl | ha := List.mem_cons.1 ha
    · rw [hf]
      apply lookup_collect_isSome_of_init
      rw [lookup_set_self, Option.isSome_some]
    · exact ih ha

theorem set_ne_nil (k : α) (v : β) (l : List (α × β)) : set k v l ≠ [] := by
  intro h
  have hk := lookup_set_self k v l
  rw [h] at hk
  cases hk

theorem collect_eq_nil_iff {f : γ → Option (α × β)} {as : List γ} {l : List (α × β)} :
    collect f l as = [] ↔ l = [] ∧ ∀ a ∈ as, f a = none := by
  induction as generalizing l with
  | nil => exact ⟨fun h => ⟨h, by simp⟩, And.left⟩
  | cons a as ih =>
    rw [collect, List.foldl_cons]
    change collect f _ as = [] ↔ _
    rw [ih]
    cases hf : f a with
    | none => simp [hf]
    | some p => simp [hf, set_ne_nil]

def values (k : α) (l : List (α × β)) : List β := (l.filter (fun p => p.1 = k)).map Prod.snd

@[simp] theorem mem_values {l : List (α × β)} : v ∈ values k l ↔ (k, v) ∈ l := by
  constructor
  · intro h
    obtain ⟨⟨j, w⟩, hp, rfl⟩ := List.mem_map.1 h
    have hp' := List.mem_filter.1 hp
    have hj : j = k := by simpa using hp'.2
    exact hj ▸ hp'.1
  · intro h
    exact List.mem_map.2 ⟨(k, v), List.mem_filter.2 ⟨h, by simp⟩, rfl⟩

theorem values_eq_nil_iff {l : List (α × β)} : values k l = [] ↔ k ∉ l.map Prod.fst := by
  simp [List.eq_nil_iff_forall_not_mem]

theorem values_append (k : α) (l l' : List (α × β)) :
    values k (l ++ l') = values k l ++ values k l' := by
  simp [values]

end Assoc

/-- An insertion-ordered dictionary: no key occurs twice. -/
structure Dict (α β : Type) where
  entries : List (α × β)
  nodup : (entries.map Prod.fst).Nodup

namespace Dict
set_option autoImplicit true

variable {α β : Type} [DecidableEq α]

def empty : Dict α β := ⟨[], by simp⟩

def get? (d : Dict α β) (k : α) : Option β := d.entries.lookup k

def set (d : Dict α β) (k : α) (v : β) : Dict α β :=
  ⟨Assoc.set k v d.entries, Assoc.nodup_set k v d.nodup⟩

def filterKeys (d : Dict α β) (q : α → Bool) : Dict α β :=
  ⟨d.entries.filter (fun p => q p.1), (List.filter_sublist.map _).nodup d.nodup⟩

def isEmpty (d : Dict α β) : Bool := d.entries.isEmpty

@[simp] theorem get?_empty (k : α) : (empty : Dict α β).get? k = none := rfl

@[simp] theorem get?_set_self (d : Dict α β) (k : α) (v : β) : (d.set k v).get? k = some v :=
  Assoc.lookup_set_self k v d.entries

theorem set_set_self (d : Dict α β) (k : α) (v w : β) : (d.set k v).set k w = d.set k w := by
  rw [Dict.mk.injEq]
  exact Assoc.set_set_self k v w d.entries

theorem get?_set_ne (d : Dict α β) (h : j ≠ k) (v : β) : (d.set k v).get? j = d.get? j :=
  Assoc.lookup_set_ne h v d.entries

@[simp] theorem get?_filterKeys (d : Dict α β) (q : α → Bool) (k : α) :
    (d.filterKeys q).get? k = if q k then d.get? k else none :=
  Assoc.lookup_filter_key q d.entries k

theorem mem_entries_iff (d : Dict α β) : (k, v) ∈ d.entries ↔ d.get? k = some v := by
  obtain ⟨l, hl⟩ := d
  induction l with
  | nil => simp [get?]
  | cons p l ih =>
    obtain ⟨j, w⟩ := p
    obtain ⟨hj, hl'⟩ := List.nodup_cons.1 hl
    have ih' := ih hl'
    by_cases hk : k = j
    · subst hk
      have hno : (k, v) ∉ l := fun h => hj (List.mem_map.2 ⟨_, h, rfl⟩)
      simp [get?, hno, eq_comm]
    · have hb : (k == j) = false := by simpa using hk
      simpa [get?, List.lookup_cons, hb, hk] using ih'

theorem isEmpty_iff (d : Dict α β) : d.isEmpty = true ↔ ∀ k, d.get? k = none := by
  constructor
  · intro h k
    have he : d.entries = [] := by simpa [isEmpty] using h
    simp [get?, he]
  · intro h
    by_contra hne
    obtain ⟨⟨k, v⟩, hp⟩ := List.exists_mem_of_ne_nil d.entries (by simpa [isEmpty] using hne)
    have hv := (d.mem_entries_iff).1 hp
    rw [h k] at hv
    cases hv

def keys (d : Dict α β) : Finset α := (d.entries.map Prod.fst).toFinset

@[simp] theorem mem_keys (d : Dict α β) : k ∈ d.keys ↔ d.get? k ≠ none := by
  rw [keys, List.mem_toFinset, List.mem_map, Option.ne_none_iff_exists']
  constructor
  · rintro ⟨⟨j, v⟩, hp, rfl⟩
    exact ⟨v, d.mem_entries_iff.1 hp⟩
  · rintro ⟨v, hv⟩
    exact ⟨(k, v), d.mem_entries_iff.2 hv, rfl⟩

theorem card_keys (d : Dict α β) : d.keys.card = d.entries.length := by
  rw [keys, List.toFinset_card_of_nodup d.nodup, List.length_map]

theorem keys_set (d : Dict α β) (k : α) (v : β) : (d.set k v).keys = insert k d.keys := by
  ext j
  by_cases h : j = k
  · simp [h]
  · simp [get?_set_ne d h, h]

theorem filter_key_eq (d : Dict α β) (k : α) :
    d.entries.filter (fun p => p.1 = k) = (d.get? k).toList.map (fun v => (k, v)) := by
  obtain ⟨l, hl⟩ := d
  induction l with
  | nil => rfl
  | cons p l ih =>
    obtain ⟨j, w⟩ := p
    obtain ⟨hj, hl'⟩ := List.nodup_cons.1 hl
    have ih' := ih hl'
    by_cases hk : j = k
    · subst hk
      have hnil : l.filter (fun p => decide (p.1 = j)) = [] := by
        rw [List.filter_eq_nil_iff]
        intro q hq he
        exact hj (List.mem_map.2 ⟨q, hq, by simpa using he⟩)
      simp [get?, hnil]
    · have hb : (k == j) = false := by simpa using Ne.symm hk
      simpa [get?, List.filter_cons, List.lookup_cons, hk, hb] using ih'

theorem countP_key (d : Dict α β) (k : α) (q : β → Bool) :
    d.entries.countP (fun p => p.1 = k && q p.2) = if (d.get? k).any q then 1 else 0 := by
  have hf : d.entries.filter (fun p => decide (p.1 = k) && q p.2) =
      (d.entries.filter (fun p => p.1 = k)).filter (fun p => q p.2) := by
    rw [List.filter_filter]
    exact List.filter_congr (fun p _ => Bool.and_comm _ _)
  rw [List.countP_eq_length_filter, hf, filter_key_eq]
  cases d.get? k with
  | none => rfl
  | some v => by_cases hq : q v = true <;> simp [hq]

/-- First value of a key wins, unless a later one is preferred and the current one is not. -/
def pick (p : β → Bool) (d : Dict α β) (x : α × β) : Dict α β :=
  match d.get? x.1 with
  | none => d.set x.1 x.2
  | some cur => if !p cur && p x.2 then d.set x.1 x.2 else d

/-- The value `pick` settles on: the first preferred one, else the first. -/
def preferred (p : β → Bool) (vs : List β) : Option β :=
  match vs.find? p with
  | some v => some v
  | none => vs.head?

theorem preferred_mem {p : β → Bool} {vs : List β} (h : preferred p vs = some v) : v ∈ vs := by
  unfold preferred at h
  split at h
  · next w hw => cases h; exact List.mem_of_find?_eq_some hw
  · exact List.mem_of_mem_head? h

theorem preferred_isSome {p : β → Bool} {vs : List β} (h : v ∈ vs) :
    ∃ w, preferred p vs = some w := by
  unfold preferred
  split
  · next w _ => exact ⟨w, rfl⟩
  · cases vs with
    | nil => cases h
    | cons w ws => exact ⟨w, rfl⟩

theorem preferred_spec {p : β → Bool} {vs : List β} (h : preferred p vs = some v)
    (hw : w ∈ vs) (hp : p w = true) : p v = true := by
  unfold preferred at h
  split at h
  · next u hu => cases h; exact List.find?_some hu
  · next hn => exact absurd hp (by simpa using List.find?_eq_none.1 hn w hw)

theorem preferred_append_one (p : β → Bool) (vs : List β) (w : β) :
    preferred p (vs ++ [w]) =
      match preferred p vs with
      | none => some w
      | some cur => if !p cur && p w then some w else some cur := by
  unfold preferred
  rw [List.find?_append]
  cases hf : vs.find? p with
  | some v =>
    have hv : p v = true := List.find?_some hf
    simp [hv]
  | none =>
    cases vs with
    | nil => by_cases hw : p w = true <;> simp [hw]
    | cons u us =>
      have hu : p u = false := by
        simpa using List.find?_eq_none.1 hf u (by simp)
      by_cases hw : p w = true <;> simp [hw, hu]

theorem get?_pick (p : β → Bool) (d : Dict α β) (x : α × β) (k : α) :
    (d.pick p x).get? k =
      if x.1 = k then
        match d.get? k with
        | none => some x.2
        | some cur => if !p cur && p x.2 then some x.2 else some cur
      else d.get? k := by
  unfold pick
  by_cases hk : x.1 = k
  · subst hk
    cases hd : d.get? x.1 with
    | none => simp
    | some cur => by_cases hc : (!p cur && p x.2) = true <;> simp [hc, hd]
  · have hk' : k ≠ x.1 := fun h => hk h.symm
    cases hd : d.get? x.1 with
    | none => simp [hk, get?_set_ne d hk']
    | some cur =>
      by_cases hc : (!p cur && p x.2) = true <;> simp [hc, hk, get?_set_ne d hk']

/-- Folding `pick` over a list binds every key to its preferred value. -/
theorem get?_foldl_pick (p : β → Bool) (l : List (α × β)) (k : α) :
    (l.foldl (pick p) empty).get? k = preferred p (Assoc.values k l) := by
  induction l using List.reverseRecOn with
  | nil => rfl
  | append_singleton l x ih =>
    rw [List.foldl_append, List.foldl_cons, List.foldl_nil, get?_pick, Assoc.values_append, ih]
    by_cases hk : x.1 = k
    · have hx : Assoc.values k [x] = [x.2] := by simp [Assoc.values, hk]
      rw [if_pos hk, hx, preferred_append_one]
    · have hx : Assoc.values k [x] = [] := by simp [Assoc.values, hk]
      rw [if_neg hk, hx, List.append_nil]

section Buckets
variable {γ : Type}

/-- The list under a key of a `defaultdict(list)`. -/
def bucket (d : Dict α (List γ)) (k : α) : List γ := (d.get? k).getD []

/-- `d[k].append(x)` on a `defaultdict(list)`. -/
def push (d : Dict α (List γ)) (k : α) (x : γ) : Dict α (List γ) := d.set k (d.bucket k ++ [x])

@[simp] theorem bucket_empty (k : α) : (empty : Dict α (List γ)).bucket k = [] := rfl

theorem bucket_push (d : Dict α (List γ)) (k j : α) (x : γ) :
    (d.push k x).bucket j = d.bucket j ++ if k = j then [x] else [] := by
  by_cases h : k = j
  · subst h; simp [bucket, push]
  · simp [bucket, push, get?_set_ne d (fun he => h he.symm), h]

theorem keys_push (d : Dict α (List γ)) (k : α) (x : γ) : (d.push k x).keys = insert k d.keys :=
  keys_set d k _

theorem bucket_set (d : Dict α (List γ)) (k j : α) (xs : List γ) :
    (d.set k xs).bucket j = if j = k then xs else d.bucket j := by
  by_cases h : j = k
  · simp [bucket, h]
  · simp [bucket, get?_set_ne d h, h]

def contents (d : Dict α (List γ)) : List γ := d.entries.flatMap Prod.snd

theorem mem_contents {d : Dict α (List γ)} : x ∈ d.contents ↔ ∃ k, x ∈ d.bucket k := by
  rw [contents, List.mem_flatMap]
  constructor
  · rintro ⟨⟨k, xs⟩, hp, hx⟩
    refine ⟨k, ?_⟩
    rw [bucket, (d.mem_entries_iff).1 hp]
    exact hx
  · rintro ⟨k, hx⟩
    rw [bucket] at hx
    cases hk : d.get? k with
    | none =>
      rw [hk] at hx
      cases hx
    | some xs =>
      rw [hk] at hx
      exact ⟨(k, xs), (d.mem_entries_iff).2 hk, hx⟩

/-- A list that is stored takes the place of the one under its key. -/
theorem contents_set_perm (d : Dict α (List γ)) (k : α) (xs : List γ) :
    (d.bucket k ++ (d.set k xs).contents).Perm (xs ++ d.contents) := by
  obtain ⟨l, hl⟩ := d
  induction l with
  | nil => simp [contents, bucket, get?, set, Assoc.set]
  | cons p l ih =>
    obtain ⟨j, ys⟩ := p
    obtain ⟨hj, hl'⟩ := List.nodup_cons.1 hl
    have ih' := ih hl'
    by_cases hk : j = k
    · subst hk
      simp only [contents, bucket, get?, set, Assoc.set, List.lookup_cons_self, Option.getD_some,
        if_true, List.flatMap_cons]
      rw [← List.append_assoc, ← List.append_assoc]
      exact List.perm_append_comm.append_right _
    · have hb : (k == j) = false := by simpa using Ne.symm hk
      simp only [contents, bucket, get?, set, Assoc.set, List.lookup_cons, hb, hk, if_false,
        List.flatMap_cons] at ih' ⊢
      have hleft := (@List.perm_append_comm _ ((l.lookup k).getD []) ys).append_right
        ((Assoc.set k xs l).flatMap Prod.snd)
      have hright := (@List.perm_append_comm _ ys xs).append_right
        (l.flatMap Prod.snd)
      rw [List.append_assoc, List.append_assoc] at hleft hright
      exact (hleft.trans (ih'.append_left ys)).trans hright

def total (d : Dict α (List γ)) : Nat := (d.entries.map (fun p => p.2.length)).sum

theorem total_push (d : Dict α (List γ)) (k : α) (x : γ) : (d.push k x).total = d.total + 1 := by
  obtain ⟨l, hl⟩ := d
  induction l with
  | nil => simp [total, push, set, Assoc.set, bucket, get?]
  | cons p l ih =>
    obtain ⟨j, ys⟩ := p
    obtain ⟨hj, hl'⟩ := List.nodup_cons.1 hl
    have ih' := ih hl'
    by_cases hk : j = k
    · subst hk
      simp [total, push, set, Assoc.set, bucket, get?]
      omega
    · have hb : (k == j) = false := by simpa using Ne.symm hk
      simp [total, push, set, Assoc.set, bucket, get?, hk, List.lookup_cons, hb] at ih' ⊢
      omega

def pushAll (d : Dict α (List γ)) (es : List (α × γ)) : Dict α (List γ) :=
  es.foldl (fun d e => d.push e.1 e.2) d

theorem bucket_pushAll (d : Dict α (List γ)) (es : List (α × γ)) (k : α) :
    (d.pushAll es).bucket k = d.bucket k ++ Assoc.values k es := by
  induction es generalizing d with
  | nil => simp [pushAll, Assoc.values]
  | cons e es ih =>
    have he := ih (d.push e.1 e.2)
    rw [bucket_push] at he
    by_cases hk : e.1 = k <;> simpa [pushAll, Assoc.values, List.filter_cons, hk] using he

theorem entries_pushAll (d : Dict α (List γ)) (es : List (α × γ))
    (h : (d.entries.map Prod.fst ++ es.map Prod.fst).Nodup) :
    (d.pushAll es).entries = d.entries ++ es.map (fun e => (e.1, [e.2])) := by
  induction es generalizing d with
  | nil => simp [pushAll]
  | cons e es ih =>
    have hnew : e.1 ∉ d.entries.map Prod.fst := by
      intro hmem
      exact (List.nodup_append.1 h).2.2 e.1 hmem e.1 (by simp) rfl
    have hget : d.get? e.1 = none := by
      by_contra hne
      exact hnew (List.mem_toFinset.1 (d.mem_keys.2 hne))
    have hpush : (d.push e.1 e.2).entries = d.entries ++ [(e.1, [e.2])] := by
      rw [push, bucket, hget]
      exact Assoc.set_of_notMem hnew _
    have hstep := ih (d.push e.1 e.2) (by simpa [hpush] using h)
    rw [hpush] at hstep
    simpa [pushAll] using hstep

theorem total_pushAll (d : Dict α (List γ)) (es : List (α × γ)) :
    (d.pushAll es).total = d.total + es.length := by
  induction es generalizing d with
  | nil => simp [pushAll]
  | cons e es ih =>
    have he := ih (d.push e.1 e.2)
    rw [total_push] at he
    simp only [pushAll, List.foldl_cons, List.length_cons] at he ⊢
    omega

end Buckets

/-- Replace every value, with its key at hand. -/
def mapEntries (d : Dict α β) (f : α → β → β) : Dict α β :=
  ⟨d.entries.map (fun p => (p.1, f p.1 p.2)), by simpa [Function.comp_def] using d.nodup⟩

@[simp] theorem get?_mapEntries (d : Dict α β) (f : α → β → β) (k : α) :
    (d.mapEntries f).get? k = (d.get? k).map (f k) := by
  obtain ⟨l, hl⟩ := d
  simp only [mapEntries, get?]
  clear hl
  induction l with
  | nil => rfl
  | cons p l ih =>
    by_cases hp : p.1 = k
    · simp [Assoc.lookup_cons_eq, hp]
    · simp [Assoc.lookup_cons_eq, hp, ih]

/-- `d[k] = d.get(k, 0) + n` on a dictionary of counters. -/
def bump (d : Dict α Nat) (k : α) (n : Nat) : Dict α Nat := d.set k ((d.get? k).getD 0 + n)

/-- `d.update(es)`. -/
def update (d : Dict α β) (es : List (α × β)) : Dict α β :=
  es.foldl (fun d e => d.set e.1 e.2) d

theorem get?_update {d : Dict α β} {es : List (α × β)} (h : (d.update es).get? k = some v) :
    (k, v) ∈ es ∨ k ∉ es.map Prod.fst ∧ d.get? k = some v := by
  induction es generalizing d with
  | nil => exact .inr ⟨List.not_mem_nil, h⟩
  | cons e es ih =>
    obtain hin | ⟨hout, hget⟩ := ih h
    · exact .inl (List.mem_cons_of_mem e hin)
    · by_cases hk : k = e.1
      · subst hk
        rw [get?_set_self] at hget
        cases hget
        exact .inl List.mem_cons_self
      · rw [get?_set_ne d hk] at hget
        apply Or.inr
        simp only [List.map_cons, List.mem_cons, not_or]
        exact ⟨⟨hk, hout⟩, hget⟩

theorem get?_update_of_notMem (d : Dict α β) {es : List (α × β)} (h : k ∉ es.map Prod.fst) :
    (d.update es).get? k = d.get? k := by
  induction es generalizing d with
  | nil => rfl
  | cons e es ih =>
    simp only [List.map_cons, List.mem_cons, not_or] at h
    exact (ih (d.set e.1 e.2) h.2).trans (get?_set_ne d h.1 e.2)

theorem get?_update_const (d : Dict α β) (ks : List α) (v : β) (k : α) :
    (d.update (ks.map (fun j => (j, v)))).get? k = if k ∈ ks then some v else d.get? k := by
  induction ks generalizing d with
  | nil => rfl
  | cons j ks ih =>
    have hrest : (d.update ((j :: ks).map (fun j => (j, v)))).get? k =
        if k ∈ ks then some v else (d.set j v).get? k := ih (d.set j v)
    rw [hrest]
    by_cases hk : k = j
    · subst hk
      simp
    · simp [hk, get?_set_ne d hk]

theorem length_le {d d' : Dict α β} (h : ∀ k, d'.get? k ≠ none → d.get? k ≠ none) :
    d'.entries.length ≤ d.entries.length := by
  rw [← d.card_keys, ← d'.card_keys]
  apply Finset.card_le_card
  intro k hk
  exact d.mem_keys.2 (h k (d'.mem_keys.1 hk))

theorem length_of_set_keys {d d' : Dict α β} {ks : List α} {v : β} (hks : ks.Nodup)
    (h : ∀ k, d'.get? k = if k ∈ ks then some v else d.get? k) :
    d'.entries.length =
      d.entries.length + (ks.filter (fun k => !(d.get? k).isSome)).length := by
  have hnew : ∀ k, k ∈ ks.filter (fun k => !(d.get? k).isSome) ↔ k ∈ ks ∧ d.get? k = none := by
    intro k
    simp
  have hkeys : d'.keys = d.keys ∪ (ks.filter (fun k => !(d.get? k).isSome)).toFinset := by
    ext k
    rw [mem_keys, Finset.mem_union, mem_keys, List.mem_toFinset, hnew, h]
    by_cases hk : k ∈ ks
    · simp [hk, em']
    · simp [hk]
  have hdisjoint : Disjoint d.keys (ks.filter (fun k => !(d.get? k).isSome)).toFinset := by
    rw [Finset.disjoint_left]
    intro k hk hin
    exact d.mem_keys.1 hk ((hnew k).1 (List.mem_toFinset.1 hin)).2
  rw [← d.card_keys, ← d'.card_keys, hkeys, Finset.card_union_of_disjoint hdisjoint,
    List.toFinset_card_of_nodup (hks.filter _)]

theorem get?_ne_none_of_full {ν : Type} {d : Dict Nat ν} (hkeys : ∀ i v, d.get? i = some v → i < n)
    (hlength : n ≤ d.entries.length) (hi : i < n) : d.get? i ≠ none := by
  have hsub : d.keys ⊆ Finset.range n := by
    intro j hj
    obtain ⟨v, hv⟩ := Option.ne_none_iff_exists'.1 (d.mem_keys.1 hj)
    exact Finset.mem_range.2 (hkeys j v hv)
  have hall : d.keys = Finset.range n := by
    apply Finset.eq_of_subset_of_card_le hsub
    rw [Finset.card_range, d.card_keys]
    exact hlength
  rw [← d.mem_keys, hall]
  exact Finset.mem_range.2 hi

end Dict
