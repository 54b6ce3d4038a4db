import Mathlib.Data.List.Perm.Basic
import CentralOps.Lib.Ledger

set_option autoImplicit true

namespace Grouping

variable {α κ : Type} [DecidableEq κ] (f : α → κ)

/-- The keys of a list, in the order of their first occurrence. -/
def keys (l : List α) : List κ := (l.map f).eraseDups

/-- The elements with a key. -/
def members (l : List α) (k : κ) : List α := l.filter (fun x => f x = k)

/-- The elements whose key has been seen before. -/
def repeatsFrom (seen : List κ) : List α → List α
  | [] => []
  | x :: l => if f x ∈ seen then x :: repeatsFrom seen l else repeatsFrom (f x :: seen) l

/-- The elements that are not the first of their key. -/
def repeats (l : List α) : List α := repeatsFrom f [] l

variable {f} {l : List α} {k : κ} {n : Nat}

theorem mem_keys : k ∈ keys f l ↔ k ∈ l.map f := List.mem_eraseDups

theorem keys_append_one (l : List α) (x : α) :
    keys f (l ++ [x]) = if f x ∈ keys f l then keys f l else keys f l ++ [f x] := by
  have happend : keys f (l ++ [x]) = keys f l ++ ([f x].removeAll (l.map f)).eraseDups := by
    rw [keys, List.map_append, List.eraseDups_append, List.map_singleton]
    rfl
  rw [happend, List.removeAll, List.filter_singleton]
  split
  · next h =>
    have hseen : ∃ a ∈ l, f a = f x := List.mem_map.1 (mem_keys.1 h)
    simp [hseen]
  · next h =>
    have hnew : ¬ ∃ a ∈ l, f a = f x := fun hseen => h (mem_keys.2 (List.mem_map.2 hseen))
    simp [hnew, List.eraseDups_cons]

theorem keys_nodup (l : List α) : (keys f l).Nodup := by
  induction l using List.reverseRecOn with
  | nil => exact List.nodup_nil
  | append_singleton l x ih =>
    rw [keys_append_one]
    split
    · exact ih
    · next h => exact List.nodup_append.2 ⟨ih, List.nodup_singleton _, by aesop⟩

theorem members_append_one (l : List α) (x : α) (k : κ) :
    members f (l ++ [x]) k = members f l k ++ if f x = k then [x] else [] := by
  rw [members, List.filter_append, List.filter_singleton]
  split
  · next h => simp [members, h]
  · next h => simp [members, h]

theorem members_ne_nil (h : k ∈ keys f l) : members f l k ≠ [] := by
  obtain ⟨x, hx, rfl⟩ := List.mem_map.1 (mem_keys.1 h)
  exact List.ne_nil_of_mem (List.mem_filter.2 ⟨hx, decide_eq_true rfl⟩)

theorem members_eq_nil (h : k ∉ keys f l) : members f l k = [] := by
  rw [members, List.filter_eq_nil_iff]
  intro x hx hk
  exact h (mem_keys.2 (List.mem_map.2 ⟨x, hx, of_decide_eq_true hk⟩))

theorem repeatsFrom_append_one (seen : List κ) (l : List α) (x : α) :
    repeatsFrom f seen (l ++ [x]) =
      repeatsFrom f seen l ++ if f x ∈ seen ∨ f x ∈ l.map f then [x] else [] := by
  induction l generalizing seen with
  | nil => by_cases h : f x ∈ seen <;> simp [repeatsFrom, h]
  | cons y l ih =>
    rw [List.cons_append, repeatsFrom, repeatsFrom]
    split
    · next h =>
      have hiff : (f x ∈ seen ∨ f x ∈ l.map f) ↔ (f x ∈ seen ∨ f x ∈ (y :: l).map f) := by
        rw [List.map_cons, List.mem_cons]
        constructor
        · rintro (hx | hx)
          · exact .inl hx
          · exact .inr (.inr hx)
        · rintro (hx | hx | hx)
          · exact .inl hx
          · exact .inl (hx ▸ h)
          · exact .inr hx
      rw [ih, List.cons_append]
      simp only [hiff]
    · have hiff : (f x ∈ f y :: seen ∨ f x ∈ l.map f) ↔
          (f x ∈ seen ∨ f x ∈ (y :: l).map f) := by
        rw [List.map_cons, List.mem_cons, List.mem_cons]
        tauto
      rw [ih]
      simp only [hiff]

theorem repeats_append_one (l : List α) (x : α) :
    repeats f (l ++ [x]) = repeats f l ++ if f x ∈ keys f l then [x] else [] := by
  rw [repeats, repeatsFrom_append_one]
  simp only [List.not_mem_nil, false_or, mem_keys]
  rfl

/-- One more element under one of the keys. -/
theorem flatMap_at {ks : List κ} (hks : ks.Nodup) (hk : k ∈ ks) (g : κ → List α) (x : α) :
    (ks.flatMap (fun j => g j ++ if k = j then [x] else [])).Perm (ks.flatMap g ++ [x]) := by
  have hone : ks.flatMap (fun j => if k = j then [x] else []) = [x] := by
    induction ks with
    | nil => cases hk
    | cons j ks ih =>
      obtain ⟨hj, hks⟩ := List.nodup_cons.1 hks
      rw [List.flatMap_cons]
      by_cases heq : k = j
      · subst heq
        have hrest : ks.flatMap (fun j => if k = j then [x] else []) = [] := by
          rw [List.flatMap_eq_nil_iff]
          intro i hi
          apply if_neg
          rintro rfl
          exact hj hi
        rw [if_pos rfl, hrest]
        rfl
      · rw [if_neg heq, ih hks ((List.mem_cons.1 hk).resolve_left heq)]
        rfl
  have hsplit := (List.flatMap_append_perm ks g (fun j => if k = j then [x] else [])).symm
  rwa [hone] at hsplit

theorem flatMap_members_perm (l : List α) : ((keys f l).flatMap (members f l)).Perm l := by
  induction l using List.reverseRecOn with
  | nil => exact .nil
  | append_singleton l x ih =>
    have hmembers : members f (l ++ [x]) =
        fun j => members f l j ++ if f x = j then [x] else [] := by
      funext j
      exact members_append_one l x j
    rw [keys_append_one, hmembers]
    split
    · next h => exact (flatMap_at (keys_nodup l) h _ x).trans (ih.append_right [x])
    · next h =>
      have hkept : (keys f l).flatMap (fun j => members f l j ++ if f x = j then [x] else []) =
          (keys f l).flatMap (members f l) := by
        apply List.flatMap_congr
        intro j hj
        have hne : f x ≠ j := by
          rintro rfl
          exact h hj
        rw [if_neg hne, List.append_nil]
      rw [List.flatMap_append, hkept, List.flatMap_singleton, members_eq_nil h, if_pos rfl]
      exact ih.append_right [x]

theorem flatMap_tails_perm (l : List α) :
    ((keys f l).flatMap (fun k => (members f l k).tail)).Perm (repeats f l) := by
  induction l using List.reverseRecOn with
  | nil => exact .nil
  | append_singleton l x ih =>
    have htail : ∀ j ∈ keys f l, (members f (l ++ [x]) j).tail =
        (members f l j).tail ++ if f x = j then [x] else [] := by
      intro j hj
      rw [members_append_one, List.tail_append_of_ne_nil (members_ne_nil hj)]
    rw [keys_append_one, repeats_append_one]
    split
    · next h =>
      rw [List.flatMap_congr htail]
      exact (flatMap_at (keys_nodup l) h _ x).trans (ih.append_right [x])
    · next h =>
      have hkept : (keys f l).flatMap (fun j => (members f (l ++ [x]) j).tail) =
          (keys f l).flatMap (fun j => (members f l j).tail) := by
        apply List.flatMap_congr
        intro j hj
        have hne : f x ≠ j := by
          rintro rfl
          exact h hj
        rw [htail j hj, if_neg hne, List.append_nil]
      rw [List.flatMap_append, hkept, List.flatMap_singleton, members_append_one,
        members_eq_nil h, if_pos rfl]
      simpa using ih

theorem sum_members_length (l : List α) :
    ((keys f l).map (fun k => (members f l k).length)).sum = l.length := by
  rw [← (flatMap_members_perm (f := f) l).length_eq, List.length_flatMap]

theorem keys_add_repeats (l : List α) : (keys f l).length + (repeats f l).length = l.length := by
  induction l using List.reverseRecOn with
  | nil => rfl
  | append_singleton l x ih =>
    rw [keys_append_one, repeats_append_one]
    split
    · simp only [List.length_append, List.length_singleton]
      omega
    · simp only [List.length_append, List.length_singleton, List.length_nil]
      omega

theorem sum_members_countP {ks : List κ} (hks : ks.Nodup) (l : List α) :
    (ks.map (fun k => (members f l k).length)).sum = l.countP (fun x => decide (f x ∈ ks)) := by
  induction ks with
  | nil => simp
  | cons k ks ih =>
    obtain ⟨hk, hks⟩ := List.nodup_cons.1 hks
    have hsplit : l.countP (fun x => decide (f x ∈ k :: ks)) =
        l.countP (fun x => decide (f x = k)) + l.countP (fun x => decide (f x ∈ ks)) := by
      apply countP_or
      · intro x _
        rw [← Bool.decide_or, decide_eq_decide]
        exact List.mem_cons
      · intro x _ hx
        rw [of_decide_eq_true hx]
        exact decide_eq_false hk
    rw [List.map_cons, List.sum_cons, ih hks, hsplit, members, ← List.countP_eq_length_filter]

def firstKeys (f : α → κ) (n : Nat) (l : List α) : List κ := (keys f l).take n

theorem firstKeys_nodup (n : Nat) (l : List α) : (firstKeys f n l).Nodup :=
  (keys_nodup l).sublist (List.take_sublist n _)

theorem mem_keys_of_firstKeys (h : k ∈ firstKeys f n l) : k ∈ keys f l := List.mem_of_mem_take h

theorem firstKeys_again {x : α} (h : f x ∈ firstKeys f n l) :
    firstKeys f n (l ++ [x]) = firstKeys f n l := by
  rw [firstKeys, keys_append_one, if_pos (mem_keys_of_firstKeys h), firstKeys]

theorem firstKeys_full (h : n ≤ (firstKeys f n l).length) (x : α) :
    firstKeys f n (l ++ [x]) = firstKeys f n l := by
  have hle : n ≤ (keys f l).length := h.trans (List.length_take_le' n _)
  rw [firstKeys, keys_append_one]
  split
  · rfl
  · rw [List.take_append_of_le_length hle, firstKeys]

theorem firstKeys_eq_keys (h : (firstKeys f n l).length < n) : firstKeys f n l = keys f l := by
  rw [firstKeys, List.length_take] at h
  apply List.take_of_length_le
  omega

theorem firstKeys_room {x : α} (hx : f x ∉ firstKeys f n l) (h : (firstKeys f n l).length < n) :
    firstKeys f n (l ++ [x]) = firstKeys f n l ++ [f x] := by
  have hall := firstKeys_eq_keys h
  rw [hall] at hx h ⊢
  rw [firstKeys, keys_append_one, if_neg hx, List.take_of_length_le]
  rw [List.length_append, List.length_singleton]
  exact h

theorem entries_eq_buckets (d : Dict κ (List α)) :
    d.entries = (d.entries.map Prod.fst).map (fun k => (k, d.bucket k)) := by
  rw [List.map_map]
  conv_lhs => rw [← List.map_id d.entries]
  apply List.map_congr_left
  rintro ⟨k, xs⟩ hp
  simp [Dict.bucket, d.mem_entries_iff.1 hp]

theorem entries_pushAll (f : α → κ) (l : List α) :
    (Dict.empty.pushAll (l.map (fun x => (f x, x)))).entries =
      (keys f l).map (fun k => (k, members f l k)) := by
  have hkeys : (Dict.empty.pushAll (l.map (fun x => (f x, x)))).entries.map Prod.fst =
      keys f l := by
    induction l using List.reverseRecOn with
    | nil => rfl
    | append_singleton l x ih =>
      rw [List.map_append, Dict.pushAll, List.foldl_append, keys_append_one, ← ih]
      exact Assoc.keys_set _ _ _
  have hbucket : ∀ k, (Dict.empty.pushAll (l.map (fun x => (f x, x)))).bucket k =
      members f l k := by
    intro k
    rw [Dict.bucket_pushAll, Dict.bucket_empty, List.nil_append, Assoc.values, List.filter_map,
      List.map_map]
    simp [members, Function.comp_def]
  rw [entries_eq_buckets, hkeys]
  simp only [hbucket]

section Relation
variable {β : Type} {A : α → β → Prop}

def GroupRel (A : α → β → Prop) (p : κ × List α) (q : κ × List β) : Prop :=
  p.1 = q.1 ∧ List.Forall₂ A p.2 q.2

variable {groups : List (κ × List α)} {groups' : List (κ × List β)}

theorem lookup_rel (h : List.Forall₂ (GroupRel A) groups groups') (k : κ) :
    Option.Rel (List.Forall₂ A) (groups.lookup k) (groups'.lookup k) := by
  induction h with
  | nil => exact .none
  | cons hpq _ ih =>
    obtain ⟨hkey, hmembers⟩ := hpq
    rw [Assoc.lookup_cons_eq, Assoc.lookup_cons_eq, ← hkey]
    split
    · exact .some hmembers
    · exact ih

theorem set_rel (h : List.Forall₂ (GroupRel A) groups groups') (k : κ) {xs : List α} {ys : List β}
    (hxy : List.Forall₂ A xs ys) :
    List.Forall₂ (GroupRel A) (Assoc.set k xs groups) (Assoc.set k ys groups') := by
  induction h with
  | nil => exact .cons ⟨rfl, hxy⟩ .nil
  | cons hpq hrest ih =>
    obtain ⟨hkey, hmembers⟩ := hpq
    rw [Assoc.set, Assoc.set, ← hkey]
    split
    · exact .cons ⟨rfl, hxy⟩ hrest
    · exact .cons ⟨hkey, hmembers⟩ ih

variable {d : Dict κ (List α)} {d' : Dict κ (List β)}

theorem isNone_rel (h : List.Forall₂ (GroupRel A) d.entries d'.entries) (k : κ) :
    (d.get? k).isNone = (d'.get? k).isNone := by
  have hlook := lookup_rel h k
  rw [Dict.get?, Dict.get?]
  generalize d.entries.lookup k = xs at hlook
  generalize d'.entries.lookup k = ys at hlook
  cases hlook with
  | none => rfl
  | some _ => rfl

theorem push_rel (h : List.Forall₂ (GroupRel A) d.entries d'.entries) (k : κ) {x : α} {y : β}
    (hxy : A x y) : List.Forall₂ (GroupRel A) (d.push k x).entries (d'.push k y).entries := by
  have hlook := lookup_rel h k
  apply set_rel h
  apply List.rel_append
  · rw [Dict.bucket, Dict.bucket, Dict.get?, Dict.get?]
    generalize d.entries.lookup k = xs at hlook
    generalize d'.entries.lookup k = ys at hlook
    cases hlook with
    | none => exact .nil
    | some hmembers => exact hmembers
  · exact .cons hxy .nil

end Relation

end Grouping
