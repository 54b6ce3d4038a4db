import Mathlib.Logic.Function.Basic
import CentralOps.Lib.Fence

set_option autoImplicit true

namespace Heap

variable {κ : Type} {h h' : Heap κ} {node node' : List String → Option Nat}
  {written : List String → Option (Ref κ)}

/-- The value at the end of a path of keys. -/
def follow (h : Heap κ) : Ref κ → List String → Option (Ref κ)
  | v, [] => some v
  | v, k :: ks =>
    match h.shape v with
    | .dict fs => (fs.lookup k).bind (fun w => follow h w ks)
    | _ => none

/-- What stands at a path of a tree of dicts: a dict of the tree, or a value that was written. -/
def entry (node : List String → Option Nat) (written : List String → Option (Ref κ))
    (p : List String) : Option (Ref κ) := ((node p).map .addr).or (written p)

/-- The dicts of a tree, by their paths, and the values written below them. No dict stands at two
paths, and each holds what stands at the next paths and nothing else. -/
structure Tree (h : Heap κ) (node : List String → Option Nat)
    (written : List String → Option (Ref κ)) : Prop where
  inj : ∀ p q a, node p = some a → node q = some a → p = q
  cell : ∀ p a, node p = some a →
    ∃ fs, h[a]? = some (.dict fs) ∧ ∀ k, fs.lookup k = entry node written (p ++ [k])
  up : ∀ p k, (node (p ++ [k])).isSome = true → (node p).isSome = true
  held : ∀ p k, (written (p ++ [k])).isSome = true → (node p).isSome = true

section Entry

theorem entry_node (hp : node p = some a) : entry node written p = some (.addr a) := by
  rw [entry, hp]
  rfl

theorem entry_written (hp : node p = none) : entry node written p = written p := by
  rw [entry, hp]
  rfl

end Entry

section Follow
variable (ht : Tree h node written)

include ht

theorem Tree.lt_length (hp : node p = some a) : a < h.length := by
  obtain ⟨fs, hcell, _⟩ := ht.cell p a hp
  exact (List.getElem?_eq_some_iff.1 hcell).1

theorem Tree.shape (hp : node p = some a) :
    ∃ fs, h.shape (.addr a) = .dict fs ∧ ∀ k, fs.lookup k = entry node written (p ++ [k]) := by
  obtain ⟨fs, hcell, hfs⟩ := ht.cell p a hp
  exact ⟨fs, by simp [Heap.shape, hcell], hfs⟩

theorem Tree.node_prefix (p q : List String) (hq : (node (p ++ q)).isSome = true) :
    (node p).isSome = true := by
  induction q using List.reverseRecOn with
  | nil => rwa [List.append_nil] at hq
  | append_singleton q k ih =>
    rw [← List.append_assoc] at hq
    exact ih (ht.up _ k hq)

theorem Tree.node_of_written (p : List String) {q : List String} (hne : q ≠ [])
    (hq : (written (p ++ q)).isSome = true) : (node p).isSome = true := by
  obtain ⟨init, last, rfl⟩ : ∃ init last, q = init ++ [last] :=
    ⟨_, _, (List.dropLast_append_getLast hne).symm⟩
  rw [← List.append_assoc] at hq
  exact ht.node_prefix p init (ht.held _ last hq)

/-- Below a dict of the tree, what stands at a path is what is found on it. -/
theorem Tree.follow_entry (q : List String) {p : List String} {a : Nat} (hp : node p = some a)
    (hv : entry node written (p ++ q) = some v) : h.follow (.addr a) q = some v := by
  induction q generalizing p a with
  | nil =>
    rw [List.append_nil, entry_node hp] at hv
    exact hv
  | cons k ks ih =>
    obtain ⟨fs, hshape, hfs⟩ := ht.shape hp
    rw [follow, hshape]
    dsimp only
    rw [hfs]
    rw [List.append_cons] at hv
    cases hk : node (p ++ [k]) with
    | some b =>
      rw [entry_node hk]
      exact ih hk hv
    | none =>
      cases ks with
      | nil =>
        rw [List.append_nil] at hv
        rw [hv]
        rfl
      | cons k' ks =>
        have hpassed : (node (p ++ [k])).isSome = true := by
          cases hn : node (p ++ [k] ++ k' :: ks) with
          | some b => exact ht.node_prefix (p ++ [k]) (k' :: ks) (by rw [hn]; rfl)
          | none =>
            rw [entry_written hn] at hv
            exact ht.node_of_written (p ++ [k]) (List.cons_ne_nil k' ks) (by rw [hv]; rfl)
        rw [hk] at hpassed
        cases hpassed

/-- What is found below a dict of the tree is a dict of the tree, or lies at or below a value that
was written. -/
theorem Tree.follow_inv (q : List String) {p : List String} {a : Nat} (hp : node p = some a)
    (hw : h.follow (.addr a) q = some w) :
    (∃ b, node (p ++ q) = some b ∧ w = .addr b) ∨
      ∃ r, r <+: q ∧ (written (p ++ r)).isSome = true := by
  induction q generalizing p a with
  | nil =>
    cases hw
    exact .inl ⟨a, by rwa [List.append_nil], rfl⟩
  | cons k ks ih =>
    obtain ⟨fs, hshape, hfs⟩ := ht.shape hp
    rw [follow, hshape] at hw
    dsimp only at hw
    rw [hfs, Option.bind_eq_some_iff] at hw
    obtain ⟨u, hu, hw⟩ := hw
    cases hk : node (p ++ [k]) with
    | none =>
      rw [entry_written hk] at hu
      exact .inr ⟨[k], List.cons_prefix_cons.2 ⟨rfl, List.nil_prefix⟩, by rw [hu]; rfl⟩
    | some b =>
      rw [entry_node hk] at hu
      obtain rfl := Option.some.inj hu
      rcases ih hk hw with ⟨c, hc, rfl⟩ | ⟨r, hr, hwr⟩
      · exact .inl ⟨c, by rwa [List.append_cons], rfl⟩
      · exact .inr ⟨k :: r, List.cons_prefix_cons.2 ⟨rfl, hr⟩, by rwa [List.append_cons]⟩

end Follow

theorem Tree.extend (ht : Tree h node written) (hp : h <+: h') : Tree h' node written where
  inj := ht.inj
  cell p a hpa := by
    obtain ⟨fs, hcell, hfs⟩ := ht.cell p a hpa
    obtain ⟨new, rfl⟩ := hp
    exact ⟨fs, by rw [List.getElem?_append_left (ht.lt_length hpa), hcell], hfs⟩
  up := ht.up
  held := ht.held

theorem tree_root (hcell : h[a]? = some (.dict [])) :
    Tree h (Function.update (fun _ => none) [] (some a)) (fun _ => none) := by
  have hnode {p : List String} {b : Nat}
      (hp : Function.update (fun _ => none) [] (some a) p = some b) : p = [] ∧ b = a := by
    by_cases hroot : p = []
    · rw [hroot, Function.update_self] at hp
      exact ⟨hroot, (Option.some.inj hp).symm⟩
    · rw [Function.update_of_ne hroot] at hp
      cases hp
  have hnone (p : List String) (k : String) :
      Function.update (fun _ => none) [] (some a) (p ++ [k]) = none :=
    Function.update_of_ne (by simp) _ _
  refine ⟨fun p q b hp hq => (hnode hp).1.trans (hnode hq).1.symm, fun p b hp => ?_,
    fun p k hk => ?_, fun p k hk => nomatch hk⟩
  · rw [(hnode hp).2]
    refine ⟨[], hcell, fun k => ?_⟩
    rw [entry_written (hnone p k)]
    rfl
  · rw [hnone] at hk
    cases hk

/-- A tree that grew by dicts of its own, in a heap where nothing else changed. -/
structure Grown (h h' : Heap κ) (node node' : List String → Option Nat) : Prop where
  keeps : ∀ p a, node p = some a → node' p = some a
  fresh : ∀ p a, node' p = some a → node p = some a ∨ h.length ≤ a
  cells : ∀ a < h.length, (∀ p, node p ≠ some a) → h'[a]? = h[a]?
  added : ∀ a, h.length ≤ a → a < h'.length → ∃ p, node' p = some a
  le : h.length ≤ h'.length

theorem Grown.trans {h'' : Heap κ} {node'' : List String → Option Nat} (hg : Grown h h' node node')
    (hg' : Grown h' h'' node' node'') : Grown h h'' node node'' where
  keeps p a hp := hg'.keeps p a (hg.keeps p a hp)
  fresh p a hp := by
    rcases hg'.fresh p a hp with hp | hle
    · exact hg.fresh p a hp
    · exact .inr (hg.le.trans hle)
  cells a ha hout := by
    have hout' : ∀ p, node' p ≠ some a := by
      intro p hp
      rcases hg.fresh p a hp with hp | hle
      · exact hout p hp
      · exact absurd ha (Nat.not_lt.2 hle)
    rw [hg'.cells a (ha.trans_le hg.le) hout', hg.cells a ha hout]
  added a hle ha := by
    by_cases hlt : a < h'.length
    · obtain ⟨p, hp⟩ := hg.added a hle hlt
      exact ⟨p, hg'.keeps p a hp⟩
    · exact hg'.added a (Nat.not_lt.1 hlt) ha
  le := hg.le.trans hg'.le

section Write

theorem append_singleton_inj {p q : List String} (h : p ++ [j] = q ++ [k]) : p = q ∧ j = k := by
  have hlast := List.append_inj' h rfl
  exact ⟨hlast.1, List.singleton_inj.1 hlast.2⟩

/-- The last write of a path: a value under a key of a dict of the tree. -/
theorem Tree.write (ht : Tree h node written) (hp : node p = some a) (hfree : node (p ++ [k]) = none)
    (v : Ref κ) :
    Tree (h.setItem (.addr a) k v) node (Function.update written (p ++ [k]) (some v)) ∧
      Grown h (h.setItem (.addr a) k v) node node := by
  obtain ⟨fs, hcell, hfs⟩ := ht.cell p a hp
  have hget := getElem?_setItem h a k v hcell
  have hlen := length_setItem h (.addr a) k v
  constructor
  · refine ⟨ht.inj, ?_, ht.up, ?_⟩
    · intro q b hq
      by_cases hqp : q = p
      · subst hqp
        obtain rfl : a = b := Option.some.inj (hp.symm.trans hq)
        refine ⟨_, (hget a).trans (if_pos rfl), fun j => ?_⟩
        by_cases hj : j = k
        · subst hj
          rw [Assoc.lookup_set_self, entry_written hfree, Function.update_self]
        · have hne : q ++ [j] ≠ q ++ [k] := fun heq => hj (append_singleton_inj heq).2
          rw [Assoc.lookup_set_ne hj, hfs, entry, entry, Function.update_of_ne hne]
      · obtain ⟨gs, hgs, hlook⟩ := ht.cell q b hq
        have hab : a ≠ b := by
          rintro rfl
          exact hqp (ht.inj q p a hq hp)
        refine ⟨gs, ((hget b).trans (if_neg hab)).trans hgs, fun j => ?_⟩
        have hne : q ++ [j] ≠ p ++ [k] := fun heq => hqp (append_singleton_inj heq).1
        rw [hlook, entry, entry, Function.update_of_ne hne]
    · intro q j hj
      by_cases heq : q ++ [j] = p ++ [k]
      · rw [(append_singleton_inj heq).1, hp]
        rfl
      · rw [Function.update_of_ne heq] at hj
        exact ht.held q j hj
  · refine ⟨fun q b hq => hq, fun q b hq => .inl hq, ?_, ?_, hlen.ge⟩
    · intro b _ hout
      rw [hget, if_neg]
      rintro rfl
      exact hout p hp
    · intro b hle hb
      rw [hlen] at hb
      exact absurd hb (Nat.not_lt.2 hle)

/-- A step of a path: a new dict under a free key of a dict of the tree. -/
theorem Tree.branch (ht : Tree h node written) (hp : node p = some a)
    (hfree : node (p ++ [k]) = none) (hclear : written (p ++ [k]) = none) :
    Tree (setItem (h ++ [.dict []]) (.addr a) k (.addr h.length))
        (Function.update node (p ++ [k]) (some h.length)) written ∧
      Grown h (setItem (h ++ [.dict []]) (.addr a) k (.addr h.length)) node
        (Function.update node (p ++ [k]) (some h.length)) := by
  obtain ⟨fs, hcell, hfs⟩ := ht.cell p a hp
  have ha : a < h.length := ht.lt_length hp
  have hcell' : (h ++ [.dict []])[a]? = some (.dict fs) := by
    rw [List.getElem?_append_left ha, hcell]
  have hget := getElem?_setItem (h ++ [.dict []]) a k (.addr h.length) hcell'
  have hlen := length_setItem (h ++ [.dict []]) (.addr a) k (.addr h.length)
  rw [List.length_append, List.length_singleton] at hlen
  have hnode {q : List String} {b : Nat}
      (hq : Function.update node (p ++ [k]) (some h.length) q = some b) :
      (q = p ++ [k] ∧ b = h.length) ∨ (q ≠ p ++ [k] ∧ node q = some b) := by
    by_cases heq : q = p ++ [k]
    · rw [heq, Function.update_self] at hq
      exact .inl ⟨heq, (Option.some.inj hq).symm⟩
    · rw [Function.update_of_ne heq] at hq
      exact .inr ⟨heq, hq⟩
  have hstays {q : List String} (hq : (node q).isSome = true) :
      (Function.update node (p ++ [k]) (some h.length) q).isSome = true := by
    by_cases heq : q = p ++ [k]
    · rw [heq, Function.update_self]
      rfl
    · rwa [Function.update_of_ne heq]
  constructor
  · refine ⟨?_, ?_, ?_, ?_⟩
    · intro q q' b hq hq'
      rcases hnode hq with ⟨rfl, rfl⟩ | ⟨_, hq⟩
      · rcases hnode hq' with ⟨rfl, _⟩ | ⟨_, hq'⟩
        · rfl
        · exact absurd (ht.lt_length hq') (Nat.lt_irrefl _)
      · rcases hnode hq' with ⟨rfl, rfl⟩ | ⟨_, hq'⟩
        · exact absurd (ht.lt_length hq) (Nat.lt_irrefl _)
        · exact ht.inj q q' b hq hq'
    · intro q b hq
      rcases hnode hq with ⟨rfl, rfl⟩ | ⟨_, hold⟩
      · -- the new dict is empty, and nothing was below it
        refine ⟨[], ?_, fun j => ?_⟩
        · rw [hget, if_neg (Nat.ne_of_lt ha), getElem?_append_one, if_pos rfl]
        · have hnone : node (p ++ [k] ++ [j]) = none := by
            by_contra hsome
            have hup := ht.up _ j (Option.isSome_iff_ne_none.2 hsome)
            rw [hfree] at hup
            cases hup
          have hempty : written (p ++ [k] ++ [j]) = none := by
            by_contra hsome
            have hheld := ht.held _ j (Option.isSome_iff_ne_none.2 hsome)
            rw [hfree] at hheld
            cases hheld
          have hlong : p ++ [k] ++ [j] ≠ p ++ [k] := by
            intro heq
            have hlength := congrArg List.length heq
            simp at hlength
          rw [entry_written (by rw [Function.update_of_ne hlong, hnone]), hempty]
          rfl
      · by_cases hqp : q = p
        · subst hqp
          obtain rfl : a = b := Option.some.inj (hp.symm.trans hold)
          refine ⟨_, (hget a).trans (if_pos rfl), fun j => ?_⟩
          by_cases hj : j = k
          · subst hj
            rw [Assoc.lookup_set_self, entry_node (Function.update_self _ _ _)]
          · have hne' : q ++ [j] ≠ q ++ [k] := fun heq => hj (append_singleton_inj heq).2
            rw [Assoc.lookup_set_ne hj, hfs, entry, entry, Function.update_of_ne hne']
        · obtain ⟨gs, hgs, hlook⟩ := ht.cell q b hold
          have hab : a ≠ b := by
            rintro rfl
            exact hqp (ht.inj q p a hold hp)
          refine ⟨gs, ?_, fun j => ?_⟩
          · rw [hget, if_neg hab, List.getElem?_append_left (ht.lt_length hold), hgs]
          · have hne' : q ++ [j] ≠ p ++ [k] := fun heq => hqp (append_singleton_inj heq).1
            rw [hlook, entry, entry, Function.update_of_ne hne']
    · intro q j hj
      by_cases heq : q ++ [j] = p ++ [k]
      · rw [(append_singleton_inj heq).1]
        exact hstays (by rw [hp]; rfl)
      · rw [Function.update_of_ne heq] at hj
        exact hstays (ht.up q j hj)
    · intro q j hj
      exact hstays (ht.held q j hj)
  · refine ⟨?_, ?_, ?_, ?_, by omega⟩
    · intro q b hq
      have hne : q ≠ p ++ [k] := by
        rintro rfl
        rw [hfree] at hq
        cases hq
      rw [Function.update_of_ne hne, hq]
    · intro q b hq
      rcases hnode hq with ⟨_, rfl⟩ | ⟨_, hq⟩
      · exact .inr le_rfl
      · exact .inl hq
    · intro b hb hout
      rw [hget, if_neg, List.getElem?_append_left hb]
      rintro rfl
      exact hout p hp
    · intro b hle hb
      obtain rfl : b = h.length := by omega
      exact ⟨p ++ [k], Function.update_self _ _ _⟩

/-- A write along a path that meets no written value and ends at no dict of the tree: the tree has
the value at the end of the path, and new dicts on the way to it. -/
theorem Tree.setPath (path : List String) (hpath : path ≠ []) {h : Heap κ}
    {node : List String → Option Nat} {p : List String} {a : Nat} (ht : Tree h node written)
    (hp : node p = some a) (hclear : ∀ r, r <+: path → r ≠ path → written (p ++ r) = none)
    (hfree : node (p ++ path) = none) (v : Ref κ) :
    ∃ node', Tree (h.setPath (.addr a) path v) node'
        (Function.update written (p ++ path) (some v)) ∧
      Grown h (h.setPath (.addr a) path v) node node' ∧
      ∀ q, (node' q).isSome = true → (node q).isSome = true ∨
        ∃ r, r <+: path ∧ r ≠ path ∧ q = p ++ r := by
  induction path generalizing h node p a with
  | nil => exact absurd rfl hpath
  | cons k ks ih =>
    cases ks with
    | nil =>
      obtain ⟨htree, hgrown⟩ := ht.write hp hfree v
      exact ⟨node, htree, hgrown, fun q hq => .inl hq⟩
    | cons k' ks =>
      obtain ⟨fs, hshape, hfs⟩ := ht.shape hp
      have hkne : [k] ≠ k :: k' :: ks := by simp
      have hkclear : written (p ++ [k]) = none :=
        hclear [k] (List.cons_prefix_cons.2 ⟨rfl, List.nil_prefix⟩) hkne
      have hclear' : ∀ r, r <+: k' :: ks → r ≠ k' :: ks → written (p ++ [k] ++ r) = none := by
        intro r hr hne
        rw [List.append_assoc]
        exact hclear (k :: r) (List.cons_prefix_cons.2 ⟨rfl, hr⟩)
          (fun heq => hne (List.cons.inj heq).2)
      have hfree' : node (p ++ [k] ++ (k' :: ks)) = none := by rwa [← List.append_cons]
      have hpass {q : List String} (hq : ∃ r, r <+: k' :: ks ∧ r ≠ k' :: ks ∧ q = p ++ [k] ++ r) :
          ∃ r, r <+: k :: k' :: ks ∧ r ≠ k :: k' :: ks ∧ q = p ++ r := by
        obtain ⟨r, hr, hne, rfl⟩ := hq
        exact ⟨k :: r, List.cons_prefix_cons.2 ⟨rfl, hr⟩, fun heq => hne (List.cons.inj heq).2,
          by rw [List.append_cons p k r]⟩
      rw [List.append_cons p k (k' :: ks)]
      unfold Heap.setPath
      cases hk : node (p ++ [k]) with
      | some b =>
        have hchild : h.childDict (.addr a) k = some (.addr b) := by
          obtain ⟨gs, hdict, _⟩ := ht.shape hk
          unfold Heap.childDict
          rw [hshape]
          dsimp only
          rw [hfs, entry_node hk, Option.filter_some, isDict, hdict]
          rfl
        rw [hchild]
        obtain ⟨node', htree, hgrown, hnew⟩ := ih (List.cons_ne_nil _ _) ht hk hclear' hfree'
        exact ⟨node', htree, hgrown, fun q hq => (hnew q hq).imp_right hpass⟩
      | none =>
        have hchild : h.childDict (.addr a) k = none := by
          unfold Heap.childDict
          rw [hshape]
          dsimp only
          rw [hfs, entry_written hk, hkclear]
          rfl
        rw [hchild]
        obtain ⟨htree, hgrown⟩ := ht.branch hp hk hkclear
        have hlong : p ++ [k] ++ k' :: ks ≠ p ++ [k] := by simp
        obtain ⟨node', htree', hgrown', hnew⟩ := ih (List.cons_ne_nil _ _) htree
          (Function.update_self _ _ _) hclear' (by rw [Function.update_of_ne hlong, hfree'])
        refine ⟨node', htree', hgrown.trans hgrown', fun q hq => ?_⟩
        rcases hnew q hq with hq | hq
        · by_cases heq : q = p ++ [k]
          · exact .inr ⟨[k], List.cons_prefix_cons.2 ⟨rfl, List.nil_prefix⟩, hkne, heq⟩
          · rw [Function.update_of_ne heq] at hq
            exact .inl hq
        · exact .inr (hpass hq)

end Write

section Fence

/-- The addresses of the dicts of a tree. -/
def Nodes (node : List String → Option Nat) (a : Nat) : Prop := ∃ p, node p = some a

theorem Fenced.found_only {K : Nat → Prop} (hf : Fenced K h) : Fenced (fun _ => False) h :=
  fenced_found hf.found

theorem Outside.found_only {K : Nat → Prop} {v : Ref κ} (hv : Outside K h v) :
    Outside (fun _ => False) h v :=
  Ref.Within.mono (fun _ ha => ⟨ha.1, id⟩) hv

/-- A write along a path leaves no reference dangling. -/
theorem Fenced.setPath (path : List String) {h : Heap κ} {d v : Ref κ}
    (hf : Fenced (fun _ => False) h) (hd : Outside (fun _ => False) h d)
    (hv : Outside (fun _ => False) h v) : Fenced (fun _ => False) (h.setPath d path v) := by
  induction path generalizing h d with
  | nil => exact hf
  | cons k ks ih =>
    cases ks with
    | nil => exact hf.setItem hv k
    | cons k' ks =>
      unfold Heap.setPath
      cases hchild : h.childDict d k with
      | some next =>
        refine ih hf ?_ hv
        have hshape := hf.shape hd
        unfold Heap.childDict at hchild
        split at hchild
        · rename_i fs hfs
          rw [hfs] at hshape
          exact all_lookup hshape (Option.filter_eq_some_iff.1 hchild).1
        · cases hchild
      | none =>
        have hempty : (Shape.dict [] : Shape κ (Ref κ)).All (Outside (fun _ => False) h) :=
          fun p hp => absurd hp List.not_mem_nil
        have hlen := length_setItem (h ++ [.dict []]) d k (.addr h.length)
        have hle : h.length ≤ (Heap.setItem (h ++ [.dict []]) d k (.addr h.length)).length := by
          rw [hlen, List.length_append]
          exact Nat.le_add_right _ _
        refine ih ((hf.append hempty).setItem (hf.new_outside _) k) ?_ (hv.mono hle)
        exact ⟨by rw [hlen]; simp, id⟩

theorem Fenced.grown (hf : Fenced (Nodes node) h) (hg : Grown h h' node node')
    (ht : Tree h' node' written) (hfound : Fenced (fun _ => False) h') :
    Fenced (Nodes node') h' where
  found := hfound.found
  apart a c hc hout := by
    have ha : a < h.length := by
      by_contra hle
      exact hout (hg.added a (Nat.not_lt.1 hle) (List.getElem?_eq_some_iff.1 hc).1)
    have hout' : ∀ p, node p ≠ some a := fun p hp => hout ⟨p, hg.keeps p a hp⟩
    rw [hg.cells a ha hout'] at hc
    have hcell := hf.cell hc (fun ⟨p, hp⟩ => hout' p hp)
    refine hcell.mono fun v hv => Ref.Within.mono (fun b hb => ?_) hv
    rintro ⟨p, hp⟩
    rcases hg.fresh p b hp with hp | hle
    · exact hb.2 ⟨p, hp⟩
    · exact absurd hb.1 (Nat.not_lt.2 hle)
  below _ ha := by
    obtain ⟨p, hp⟩ := ha
    exact ht.lt_length hp

theorem Outside.grown (hg : Grown h h' node node') {v : Ref κ} (hv : Outside (Nodes node) h v) :
    Outside (Nodes node') h' v := by
  refine Ref.Within.mono (fun a ha => ⟨ha.1.trans_le hg.le, ?_⟩) hv
  rintro ⟨p, hp⟩
  rcases hg.fresh p a hp with hp | hle
  · exact ha.2 ⟨p, hp⟩
  · exact absurd ha.1 (Nat.not_lt.2 hle)

end Fence

end Heap
