import CentralOps.Lib.Heap
import CentralOps.Lib.ListRel

set_option autoImplicit true

def FieldRel (V : ν → ν' → Prop) (p : String × ν) (q : String × ν') : Prop :=
  p.1 = q.1 ∧ V p.2 q.2

/-- The same scalar, or containers of the same form with related members. -/
inductive Shape.Rel (V : ν → ν' → Prop) : Shape κ ν → Shape κ ν' → Prop where
  | scalar (x : κ) : Rel V (.scalar x) (.scalar x)
  | list (h : List.Forall₂ V xs ys) : Rel V (.list xs) (.list ys)
  | dict (h : List.Forall₂ (FieldRel V) fs gs) : Rel V (.dict fs) (.dict gs)

/-- The same scalar, or addresses that `R` pairs. -/
inductive Ref.Paired (R : Nat → Nat → Prop) : Ref κ → Ref κ → Prop where
  | scalar (x : κ) : Paired R (.scalar x) (.scalar x)
  | addr (h : R a b) : Paired R (.addr a) (.addr b)

def OneToOne (R : Nat → Nat → Prop) : Prop := ∀ a b a' b', R a b → R a' b' → (a = a' ↔ b = b')

structure Heap.Linked (R : Nat → Nat → Prop) (h h' : Heap κ) : Prop where
  oneToOne : OneToOne R
  cells : ∀ a b, R a b → Option.Rel (Shape.Rel (Ref.Paired R)) h[a]? h'[b]?
  next : ∀ i, R (h.length + i) (h'.length + i)

section Fields
variable {V : ν → ν' → Prop}

theorem field_rel (k : String) (h : V v w) : FieldRel V (k, v) (k, w) := ⟨rfl, h⟩

theorem FieldRel.mono {W : ν → ν' → Prop} (hVW : ∀ v w, V v w → W v w) (h : FieldRel V p q) :
    FieldRel W p q := ⟨h.1, hVW _ _ h.2⟩

theorem lookup_rel (h : List.Forall₂ (FieldRel V) fs gs) (k : String) :
    Option.Rel V (fs.lookup k) (gs.lookup k) := by
  induction h with
  | nil => exact .none
  | @cons p q fs gs hpq _ ih =>
    rw [Assoc.lookup_cons_eq, Assoc.lookup_cons_eq, ← hpq.1]
    by_cases hk : p.1 = k
    · rw [if_pos hk, if_pos hk]
      exact .some hpq.2
    · rw [if_neg hk, if_neg hk]
      exact ih

theorem set_rel (h : List.Forall₂ (FieldRel V) fs gs) (k : String) (hv : V v w) :
    List.Forall₂ (FieldRel V) (Assoc.set k v fs) (Assoc.set k w gs) := by
  induction h with
  | nil => exact .cons ⟨rfl, hv⟩ .nil
  | @cons p q fs gs hpq hrest ih =>
    unfold Assoc.set
    rw [← hpq.1]
    by_cases hk : p.1 = k
    · rw [if_pos hk, if_pos hk]
      exact .cons ⟨rfl, hv⟩ hrest
    · rw [if_neg hk, if_neg hk]
      exact .cons hpq ih

theorem erase_rel (h : List.Forall₂ (FieldRel V) fs gs) (k : String) :
    List.Forall₂ (FieldRel V) (Assoc.erase k fs) (Assoc.erase k gs) :=
  filter_rel (fun p q hpq => by rw [hpq.1]) h

end Fields

namespace Heap

variable {κ : Type} {R : Nat → Nat → Prop} {h h' : Heap κ}

theorem getElem?_append_one (h : Heap κ) (c : Shape κ (Ref κ)) (a : Nat) :
    (h ++ [c])[a]? = if a = h.length then some c else h[a]? := by
  rw [List.getElem?_append]
  by_cases ha : a < h.length
  · rw [if_pos ha, if_neg (by omega)]
  · rw [if_neg ha]
    by_cases he : a = h.length
    · simp [he]
    · rw [if_neg he, List.getElem?_eq_none (by simp; omega), List.getElem?_eq_none (by omega)]

theorem Linked.shape (hl : Linked R h h') (hv : Ref.Paired R v v') :
    Shape.Rel (Ref.Paired R) (h.shape v) (h'.shape v') := by
  cases hv with
  | scalar x => exact .scalar x
  | @addr a b hab =>
    have hcell := hl.cells a b hab
    change Shape.Rel _ ((h[a]?).getD (.list [])) ((h'[b]?).getD (.list []))
    generalize h[a]? = c at hcell
    generalize h'[b]? = c' at hcell
    cases hcell with
    | none => exact .list .nil
    | some hrel => exact hrel

theorem Linked.append (hl : Linked R h h') (hc : Shape.Rel (Ref.Paired R) c c') :
    Linked R (h ++ [c]) (h' ++ [c']) where
  oneToOne := hl.oneToOne
  cells a b hab := by
    have hnext : R h.length h'.length := hl.next 0
    have hiff := hl.oneToOne a b h.length h'.length hab hnext
    rw [getElem?_append_one, getElem?_append_one]
    by_cases ha : a = h.length
    · rw [if_pos ha, if_pos (hiff.1 ha)]
      exact .some hc
    · rw [if_neg ha, if_neg (mt hiff.2 ha)]
      exact hl.cells a b hab
  next i := by
    have h1 := hl.next (1 + i)
    rw [← Nat.add_assoc, ← Nat.add_assoc] at h1
    simpa using h1

theorem Linked.make (hl : Linked R h h') (hc : Shape.Rel (Ref.Paired R) c c') :
    Ref.Paired R (h.make c).1 (h'.make c').1 ∧ Linked R (h.make c).2 (h'.make c').2 := by
  cases hc with
  | scalar x => exact ⟨.scalar x, hl⟩
  | list hm => exact ⟨.addr (hl.next 0), hl.append (.list hm)⟩
  | dict hm => exact ⟨.addr (hl.next 0), hl.append (.dict hm)⟩

theorem Linked.set (hl : Linked R h h') (hab : R a b) (hc : Shape.Rel (Ref.Paired R) c c')
    (ha : a < h.length) (hb : b < h'.length) : Linked R (h.set a c) (h'.set b c') where
  oneToOne := hl.oneToOne
  cells x y hxy := by
    have hiff := hl.oneToOne a b x y hab hxy
    rw [List.getElem?_set, List.getElem?_set]
    by_cases hax : a = x
    · have hby := hiff.1 hax
      simp only [hax, hby, if_true]
      rw [if_pos (hax ▸ ha), if_pos (hby ▸ hb)]
      exact .some hc
    · rw [if_neg hax, if_neg (mt hiff.2 hax)]
      exact hl.cells x y hxy
  next i := by simpa using hl.next i

theorem Linked.setItem (hl : Linked R h h') (hd : Ref.Paired R d d') (k : String)
    (hv : Ref.Paired R v v') : Linked R (h.setItem d k v) (h'.setItem d' k v') := by
  cases hd with
  | scalar x => exact hl
  | @addr a b hab =>
    have hcell := hl.cells a b hab
    cases ha : h[a]? with
    | none =>
      cases hb : h'[b]? with
      | none => simpa only [Heap.setItem, ha, hb] using hl
      | some c' => rw [ha, hb] at hcell; cases hcell
    | some c =>
      cases hb : h'[b]? with
      | none => rw [ha, hb] at hcell; cases hcell
      | some c' =>
        obtain ⟨hlt, -⟩ := List.getElem?_eq_some_iff.1 ha
        obtain ⟨hlt', -⟩ := List.getElem?_eq_some_iff.1 hb
        rw [ha, hb] at hcell
        obtain ⟨hrel⟩ := hcell
        cases hrel with
        | scalar x => simpa only [Heap.setItem, ha, hb] using hl
        | list hm => simpa only [Heap.setItem, ha, hb] using hl
        | dict hm =>
          simp only [Heap.setItem, ha, hb]
          exact hl.set hab (.dict (set_rel hm k hv)) hlt hlt'

theorem Linked.isDict (hl : Linked R h h') (hv : Ref.Paired R v v') :
    h.isDict v = h'.isDict v' := by
  have hs := hl.shape hv
  unfold Heap.isDict
  generalize h.shape v = c at hs
  generalize h'.shape v' = c' at hs
  cases hs with
  | scalar x => rfl
  | list hm => rfl
  | dict hm => rfl

theorem Linked.childDict (hl : Linked R h h') (hd : Ref.Paired R d d') (k : String) :
    Option.Rel (Ref.Paired R) (h.childDict d k) (h'.childDict d' k) := by
  have hs := hl.shape hd
  unfold Heap.childDict
  generalize h.shape d = c at hs
  generalize h'.shape d' = c' at hs
  cases hs with
  | scalar x => exact .none
  | list hm => exact .none
  | @dict fs gs hm =>
    have hlook := lookup_rel hm k
    dsimp only
    generalize fs.lookup k = x at hlook
    generalize gs.lookup k = y at hlook
    cases hlook with
    | none => exact .none
    | @some v w hvw =>
      have hdict := hl.isDict hvw
      cases hw : h'.isDict w with
      | true =>
        rw [hw] at hdict
        simp only [Option.filter_some, hdict, hw, if_true]
        exact .some hvw
      | false =>
        rw [hw] at hdict
        simp only [Option.filter_some, hdict, hw]
        exact .none

theorem Linked.setPath (hl : Linked R h h') (hd : Ref.Paired R d d') (path : List String)
    (hv : Ref.Paired R v v') : Linked R (h.setPath d path v) (h'.setPath d' path v') := by
  induction path generalizing h h' d d' with
  | nil => exact hl
  | cons k ks ih =>
    cases ks with
    | nil => exact hl.setItem hd k hv
    | cons k' ks =>
      have hchild := hl.childDict hd k
      unfold Heap.setPath
      generalize h.childDict d k = x at hchild
      generalize h'.childDict d' k = y at hchild
      cases hchild with
      | some hnext => exact ih hl hnext
      | none =>
        have hnew : Ref.Paired R (.addr h.length : Ref κ) (.addr h'.length) := .addr (hl.next 0)
        exact ih ((hl.append (.dict .nil)).setItem hd k hnew) hnew

/-- A reference to a cell that is not among the first `n`. -/
def OwnRef (n : Nat) : Ref κ → Prop
  | .scalar _ => True
  | .addr a => n ≤ a

instance (n : Nat) : (r : Ref κ) → Decidable (OwnRef n r)
  | .scalar _ => isTrue trivial
  | .addr a => inferInstanceAs (Decidable (n ≤ a))

theorem setItem_keeps (hp : h₀ <+: h) (hd : OwnRef h₀.length d) (k : String) (v : Ref κ) :
    h₀ <+: h.setItem d k v := by
  obtain ⟨new, rfl⟩ := hp
  cases d with
  | scalar x => exact ⟨new, rfl⟩
  | addr a =>
    unfold Heap.setItem
    dsimp only
    split
    · rw [List.set_append_right _ _ hd]
      exact List.prefix_append _ _
    · exact List.prefix_append _ _

/-- The new dict on a path holds nothing but, at most, itself. -/
theorem shape_new (h : Heap κ) (d : Ref κ) (k : String) :
    ∃ fields, (setItem (h ++ [.dict []]) d k (.addr h.length)).shape (.addr h.length) =
      .dict fields ∧ ∀ p ∈ fields, p.2 = .addr h.length := by
  have hlast : (h ++ [.dict []])[h.length]? = some (.dict []) := by
    rw [getElem?_append_one, if_pos rfl]
  have hkeep : Heap.shape (h ++ [.dict []]) (.addr h.length) = .dict [] := by
    simp only [Heap.shape, hlast, Option.getD_some]
  cases d with
  | scalar x => exact ⟨[], hkeep, by simp⟩
  | addr a =>
    unfold setItem
    dsimp only
    split
    · next fields hfields =>
      by_cases ha : a = h.length
      · rw [ha, hlast] at hfields
        cases hfields
        refine ⟨[(k, .addr h.length)], ?_, by simp⟩
        simp [Heap.shape, ha, Assoc.set]
      · refine ⟨[], ?_, by simp⟩
        simp only [Heap.shape]
        rw [List.getElem?_set_ne ha, hlast]
        rfl
    · exact ⟨[], hkeep, by simp⟩

theorem childDict_new (h : Heap κ) (d : Ref κ) (k k' : String)
    (hn : (setItem (h ++ [.dict []]) d k (.addr h.length)).childDict (.addr h.length) k' =
      some next) : next = .addr h.length := by
  obtain ⟨fields, hshape, hself⟩ := shape_new h d k
  unfold Heap.childDict at hn
  rw [hshape] at hn
  obtain ⟨hlook, -⟩ := Option.filter_eq_some_iff.1 hn
  obtain ⟨l₁, l₂, hmem, -⟩ := List.lookup_eq_some_iff.1 hlook
  exact hself (k', next) (by simp [hmem])

theorem writtenDict_new (h : Heap κ) (n : Nat)
    (hself : ∀ k next, h.childDict (.addr n) k = some next → next = .addr n) (path : List String) :
    h.writtenDict (.addr n) path = .addr n := by
  induction path with
  | nil => rfl
  | cons k ks ih =>
    cases ks with
    | nil => rfl
    | cons k' ks =>
      unfold Heap.writtenDict
      cases hchild : h.childDict (.addr n) k with
      | none => rfl
      | some next =>
        rw [hself k next hchild]
        exact ih

theorem setPath_keeps (hp : h₀ <+: h) (path : List String) (v : Ref κ)
    (hd : OwnRef h₀.length (h.writtenDict d path)) : h₀ <+: h.setPath d path v := by
  induction path generalizing h d with
  | nil => exact hp
  | cons k ks ih =>
    cases ks with
    | nil => exact setItem_keeps hp hd k v
    | cons k' ks =>
      unfold Heap.setPath
      unfold Heap.writtenDict at hd
      cases hchild : h.childDict d k with
      | some next =>
        rw [hchild] at hd
        exact ih hp hd
      | none =>
        rw [hchild] at hd
        have hnew := hp.trans (List.prefix_append h [.dict []])
        refine ih (setItem_keeps hnew hd k _) ?_
        rw [writtenDict_new _ _ (fun k'' next => childDict_new h d k k'')]
        exact hp.length_le

/-- The cells stand in the heap from address `base` on. -/
def Holds (h : Heap κ) (base : Nat) (cells : Heap κ) : Prop :=
  ∃ before after, h = before ++ (cells ++ after) ∧ before.length = base

theorem Holds.getElem? (hh : Holds h base cells) (hi : i < cells.length) :
    h[base + i]? = cells[i]? := by
  obtain ⟨before, after, rfl, rfl⟩ := hh
  rw [List.getElem?_append_right (Nat.le_add_right _ _), Nat.add_sub_cancel_left,
    List.getElem?_append_left hi]

theorem Holds.mono (hh : Holds h base cells) (hp : h <+: h') : Holds h' base cells := by
  obtain ⟨before, after, rfl, rfl⟩ := hh
  obtain ⟨new, rfl⟩ := hp
  exact ⟨before, after ++ new, by simp, rfl⟩

theorem Holds.length_le (hh : Holds h base cells) : base + cells.length ≤ h.length := by
  obtain ⟨before, after, rfl, rfl⟩ := hh
  simp only [List.length_append]
  omega

theorem holds_prefix (hp : cells <+: h) : Holds h 0 cells := by
  obtain ⟨after, rfl⟩ := hp
  exact ⟨[], after, rfl, rfl⟩

theorem holds_append (h cells : Heap κ) : Holds (h ++ cells) h.length cells :=
  ⟨h, [], by simp, rfl⟩

end Heap

/-- The `n` addresses from `a` on against those from `b` on. -/
def Shift (n a b : Nat) (x y : Nat) : Prop := ∃ i < n, x = a + i ∧ y = b + i

theorem Shift.at (hi : i < n) : Shift n a b (a + i) (b + i) := ⟨i, hi, rfl, rfl⟩

theorem Ref.Paired.mono {R R' : Nat → Nat → Prop} (hR : ∀ a b, R a b → R' a b) {v v' : Ref κ}
    (h : Paired R v v') : Paired R' v v' := by
  cases h with
  | scalar x => exact .scalar x
  | addr hab => exact .addr (hR _ _ hab)

theorem Shape.Rel.mono {V V' : ν → ν' → Prop} (hV : ∀ v v', V v v' → V' v v')
    {c : Shape κ ν} {c' : Shape κ ν'} (h : Shape.Rel V c c') : Shape.Rel V' c c' := by
  cases h with
  | scalar x => exact .scalar x
  | list hm => exact .list (hm.imp hV)
  | dict hm => exact .dict (hm.imp fun _ _ => FieldRel.mono hV)

theorem Heap.Holds.cell_rel {h h' : Heap κ} {A : Shape κ (Ref κ) → Shape κ (Ref κ) → Prop}
    (hh : h.Holds b cells) (hh' : h'.Holds b' cells') (hcells : List.Forall₂ A cells cells')
    (hxy : Shift cells.length b b' x y) : Option.Rel A h[x]? h'[y]? := by
  obtain ⟨i, hi, rfl, rfl⟩ := hxy
  rw [hh.getElem? hi, hh'.getElem? (hcells.length_eq ▸ hi)]
  exact getElem?_rel hcells i

theorem Heap.Holds.shape_rel {h h' : Heap κ} (hh : h.Holds b cells) (hh' : h'.Holds b' cells')
    (hcells : List.Forall₂ (Shape.Rel (Ref.Paired R)) cells cells')
    (hv : Ref.Paired (Shift cells.length b b') v v') :
    Shape.Rel (Ref.Paired R) (h.shape v) (h'.shape v') := by
  cases hv with
  | scalar x => exact .scalar x
  | addr hab => exact getD_rel (hh.cell_rel hh' hcells hab) (.list .nil)
