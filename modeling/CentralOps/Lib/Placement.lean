import Mathlib.Data.List.Nodup
import Mathlib.Data.List.Perm.Subperm
import Mathlib.Logic.Relation

/-! Placing elements one by one, each under the element that it needs: sweeps over the elements
until one sweep places nothing, and then whatever is left over on top. -/

namespace Placement
set_option autoImplicit true

variable {α : Type}

/-- The elements that are placed. -/
def placed (done : List (α × Option α)) : List α := done.map Prod.fst

@[simp] theorem placed_nil : placed ([] : List (α × Option α)) = [] := rfl

@[simp] theorem placed_snoc (done : List (α × Option α)) (a : α) (p : Option α) :
    placed (done ++ [(a, p)]) = placed done ++ [a] := by
  simp [placed]

inductive Layered : List (α × Option α) → Prop
  | nil : Layered []
  | root : Layered done → a ∉ placed done → Layered (done ++ [(a, none)])
  | child : Layered done → a ∉ placed done → p ∈ placed done → Layered (done ++ [(a, some p)])

theorem mem_placed (h : (a, p) ∈ done) : a ∈ placed done := List.mem_map.2 ⟨_, h, rfl⟩

theorem Layered.nodup (h : Layered done) : (placed done).Nodup := by
  induction h with
  | nil => exact List.nodup_nil
  | root _ hnew ih | child _ hnew _ ih =>
    rw [placed_snoc]
    refine List.nodup_append.2 ⟨ih, List.nodup_singleton _, fun x hx y hy => ?_⟩
    rintro rfl
    exact hnew (List.mem_singleton.1 hy ▸ hx)

theorem Layered.before (h : Layered done) (hdone : done = pre ++ (a, some p) :: post) :
    p ∈ placed pre := by
  induction h generalizing post with
  | nil => cases pre <;> cases hdone
  | @root done b _ _ ih =>
    rcases List.eq_nil_or_concat post with rfl | ⟨post', e, rfl⟩
    · have hlast := List.append_inj_right' hdone rfl
      simp at hlast
    · rw [List.concat_eq_append, ← List.cons_append, ← List.append_assoc] at hdone
      exact ih (List.append_inj_left' hdone rfl)
  | @child done b q _ _ hq ih =>
    rcases List.eq_nil_or_concat post with rfl | ⟨post', e, rfl⟩
    · have hpre := List.append_inj_left' hdone rfl
      have hlast := List.append_inj_right' hdone rfl
      simp only [List.cons.injEq, Prod.mk.injEq, Option.some.injEq, and_true] at hlast
      rw [← hpre, ← hlast.2]
      exact hq
    · rw [List.concat_eq_append, ← List.cons_append, ← List.append_assoc] at hdone
      exact ih (List.append_inj_left' hdone rfl)

theorem Layered.idxOf_lt [DecidableEq α] {done : List (α × Option α)} (h : Layered done)
    (hmem : (a, some p) ∈ done) :
    (placed done).idxOf p < (placed done).idxOf a := by
  obtain ⟨pre, post, rfl⟩ := List.append_of_mem hmem
  have hp := h.before rfl
  have hnodup := h.nodup
  have hsplit : placed (pre ++ (a, some p) :: post) = placed pre ++ a :: placed post := by
    simp [placed]
  rw [hsplit] at hnodup ⊢
  have ha : a ∉ placed pre := fun ha =>
    (List.nodup_append.1 hnodup).2.2 a ha a List.mem_cons_self rfl
  rw [List.idxOf_append_of_mem hp, List.idxOf_append_of_notMem ha]
  exact Nat.lt_of_lt_of_le (List.idxOf_lt_length_of_mem hp) (Nat.le_add_right _ _)

theorem Layered.acyclic [DecidableEq α] (h : Layered done) (a : α) :
    ¬ Relation.TransGen (fun a p => (a, some p) ∈ done) a a := by
  have hdown : ∀ b, Relation.TransGen (fun a p => (a, some p) ∈ done) a b →
      (placed done).idxOf b < (placed done).idxOf a := by
    intro b hb
    induction hb with
    | single hstep => exact h.idxOf_lt hstep
    | tail _ hstep ih => exact Nat.lt_trans (h.idxOf_lt hstep) ih
  exact fun hcycle => Nat.lt_irrefl _ (hdown a hcycle)

section Needs
variable (needs : α → Option α)

/-- From the element, following what each one needs, the way ends at one that needs nothing. -/
inductive Grounded : α → Prop
  | root : needs a = none → Grounded a
  | child : needs a = some p → Grounded p → Grounded a

variable {needs}

structure Swept (needs : α → Option α) (as : List α) (done : List (α × Option α)) : Prop where
  layered : Layered done
  inside : placed done ⊆ as
  exact : ∀ e ∈ done, e.2 = needs e.1

theorem swept_nil (needs : α → Option α) (as : List α) : Swept needs as [] where
  layered := .nil
  inside := List.nil_subset _
  exact := fun _ he => absurd he List.not_mem_nil

theorem Swept.length_le (h : Swept needs as done) : done.length ≤ as.length := by
  have hsub := (List.subperm_of_subset h.layered.nodup h.inside).length_le
  rwa [placed, List.length_map] at hsub

/-- Nothing more can be placed. -/
def Saturated (needs : α → Option α) (as : List α) (done : List (α × Option α)) : Prop :=
  ∀ a ∈ as, a ∈ placed done ∨ ∃ p, needs a = some p ∧ p ∉ placed done

theorem Swept.grounded (h : Swept needs as done) : ∀ a ∈ placed done, Grounded needs a := by
  obtain ⟨hlayered, -, hexact⟩ := h
  induction hlayered with
  | nil => exact fun a ha => absurd ha List.not_mem_nil
  | @root done b _ _ ih =>
    intro a ha
    rw [placed_snoc, List.mem_append, List.mem_singleton] at ha
    rcases ha with ha | rfl
    · exact ih (fun e he => hexact e (List.mem_append_left _ he)) a ha
    · exact .root (hexact (a, none) (by simp)).symm
  | @child done b q _ _ hq ih =>
    have hbelow := ih fun e he => hexact e (List.mem_append_left _ he)
    intro a ha
    rw [placed_snoc, List.mem_append, List.mem_singleton] at ha
    rcases ha with ha | rfl
    · exact hbelow a ha
    · exact .child (hexact (a, some q) (by simp)).symm (hbelow q hq)

/-- Once nothing more can be placed, every grounded element is, if what the elements need is among
them. -/
theorem Saturated.placed_of_grounded (h : Saturated needs as done)
    (hinside : ∀ a ∈ as, ∀ p, needs a = some p → p ∈ as) (hg : Grounded needs a) (ha : a ∈ as) :
    a ∈ placed done := by
  induction hg with
  | root hnone =>
    rcases h _ ha with hdone | ⟨p, hp, -⟩
    · exact hdone
    · rw [hnone] at hp
      cases hp
  | child hsome _ ih =>
    rcases h _ ha with hdone | ⟨p, hp, hnot⟩
    · exact hdone
    · rw [hsome] at hp
      cases hp
      exact absurd (ih (hinside _ ha _ hsome)) hnot

end Needs

variable [DecidableEq α] (needs : α → Option α)

/-- An element is placed if it is not yet, and if what it needs is. -/
def place (done : List (α × Option α)) (a : α) : List (α × Option α) :=
  if a ∈ placed done then done
  else match needs a with
    | none => done ++ [(a, none)]
    | some p => if p ∈ placed done then done ++ [(a, some p)] else done

def sweep (as : List α) (done : List (α × Option α)) : List (α × Option α) :=
  as.foldl (place needs) done

def saturate (as : List α) : Nat → List (α × Option α) → Option (List (α × Option α))
  | 0, _ => none
  | fuel + 1, done =>
    if (sweep needs as done).length = done.length then some (sweep needs as done)
    else saturate as fuel (sweep needs as done)

def leftOver (done : List (α × Option α)) (a : α) : List (α × Option α) :=
  if a ∈ placed done then done else done ++ [(a, none)]

def finish (as : List α) (done : List (α × Option α)) : List (α × Option α) :=
  as.foldl leftOver done

variable {needs}

theorem place_cases (needs : α → Option α) (done : List (α × Option α)) (a : α) :
    (place needs done a = done ∧ (a ∈ placed done ∨ ∃ p, needs a = some p ∧ p ∉ placed done)) ∨
    (place needs done a = done ++ [(a, needs a)] ∧ a ∉ placed done ∧
      ∀ p, needs a = some p → p ∈ placed done) := by
  rw [place]
  split
  · rename_i hdone
    exact .inl ⟨rfl, .inl hdone⟩
  · rename_i hnew
    split
    · rename_i hneeds
      refine .inr ⟨by rw [hneeds], hnew, fun p hp => ?_⟩
      rw [hneeds] at hp
      cases hp
    · rename_i p hneeds
      split
      · rename_i hp
        refine .inr ⟨by rw [hneeds], hnew, fun q hq => ?_⟩
        rw [hneeds] at hq
        cases hq
        exact hp
      · rename_i hp
        exact .inl ⟨rfl, .inr ⟨p, hneeds, hp⟩⟩

theorem Swept.place (h : Swept needs as done) (ha : a ∈ as) :
    Swept needs as (place needs done a) := by
  rcases place_cases needs done a with ⟨hsame, -⟩ | ⟨hmore, hnew, hneeds⟩
  · rw [hsame]
    exact h
  · rw [hmore]
    constructor
    · cases hparent : needs a with
      | none => exact .root h.layered hnew
      | some p => exact .child h.layered hnew (hneeds p hparent)
    · rw [placed_snoc]
      exact List.append_subset.2 ⟨h.inside, List.cons_subset.2 ⟨ha, List.nil_subset _⟩⟩
    · intro e he
      rcases List.mem_append.1 he with he | he
      · exact h.exact e he
      · rw [List.mem_singleton.1 he]

theorem Swept.sweep (h : Swept needs as done) {bs : List α} (hbs : bs ⊆ as) :
    Swept needs as (sweep needs bs done) := by
  induction bs generalizing done with
  | nil => exact h
  | cons b bs ih =>
    obtain ⟨hb, hbs⟩ := List.cons_subset.1 hbs
    exact ih (h.place hb) hbs

theorem length_le_place (needs : α → Option α) (done : List (α × Option α)) (a : α) :
    done.length ≤ (place needs done a).length := by
  rcases place_cases needs done a with ⟨hsame, -⟩ | ⟨hmore, -⟩
  · exact Nat.le_of_eq (congrArg List.length hsame.symm)
  · rw [hmore, List.length_append]
    exact Nat.le_add_right _ _

theorem length_le_sweep (needs : α → Option α) (bs : List α) (done : List (α × Option α)) :
    done.length ≤ (sweep needs bs done).length := by
  induction bs generalizing done with
  | nil => exact Nat.le_refl _
  | cons b bs ih => exact Nat.le_trans (length_le_place needs done b) (ih _)

theorem saturated_of_sweep {bs : List α} (h : (sweep needs bs done).length = done.length) :
    sweep needs bs done = done ∧ Saturated needs bs done := by
  induction bs generalizing done with
  | nil => exact ⟨rfl, fun a ha => absurd ha List.not_mem_nil⟩
  | cons b bs ih =>
    have hrest : (sweep needs bs (place needs done b)).length = done.length := h
    have hgrows := length_le_sweep needs bs (place needs done b)
    rcases place_cases needs done b with ⟨hsame, hb⟩ | ⟨hmore, -⟩
    · rw [hsame] at hrest
      obtain ⟨hfix, hsat⟩ := ih hrest
      refine ⟨?_, List.forall_mem_cons.2 ⟨hb, hsat⟩⟩
      change sweep needs bs (place needs done b) = done
      rw [hsame, hfix]
    · rw [hmore, List.length_append, List.length_singleton] at hgrows
      rw [hmore] at hrest
      omega

/-- The sweeps come to an end, within as many of them as there are elements and one more. -/
theorem saturate_ends (h : Swept needs as done) :
    ∃ final, Swept needs as final ∧ Saturated needs as final ∧
      ∀ fuel, as.length - done.length < fuel → saturate needs as fuel done = some final := by
  induction hroom : as.length - done.length using Nat.strongRecOn generalizing done with
  | _ room ih =>
    by_cases hstop : (Placement.sweep needs as done).length = done.length
    · obtain ⟨hfix, hsat⟩ := saturated_of_sweep hstop
      refine ⟨done, h, hsat, fun fuel hfuel => ?_⟩
      cases fuel with
      | zero => exact absurd hfuel (Nat.not_lt_zero _)
      | succ fuel => rw [saturate, if_pos hstop, hfix]
    · have hswept := h.sweep (List.Subset.refl as)
      have hgrows := length_le_sweep needs as done
      have hbound := hswept.length_le
      obtain ⟨final, hfinal, hsat, hrun⟩ := ih _ (by omega) hswept rfl
      refine ⟨final, hfinal, hsat, fun fuel hfuel => ?_⟩
      cases fuel with
      | zero => exact absurd hfuel (Nat.not_lt_zero _)
      | succ fuel =>
        rw [saturate, if_neg hstop]
        exact hrun fuel (by omega)

theorem leftOver_cases (done : List (α × Option α)) (a : α) :
    (leftOver done a = done ∧ a ∈ placed done) ∨
    (leftOver done a = done ++ [(a, none)] ∧ a ∉ placed done) := by
  rw [leftOver]
  split
  · exact .inl ⟨rfl, ‹_›⟩
  · exact .inr ⟨rfl, ‹_›⟩

/-- What the last pass adds to what is placed: the other elements, with nothing above them. -/
theorem finish_spec (bs : List α) (h : Layered done) :
    Layered (finish bs done) ∧
      (∀ a, a ∈ placed (finish bs done) ↔ a ∈ placed done ∨ a ∈ bs) ∧
      ∀ e, e ∈ finish bs done ↔ e ∈ done ∨ e.1 ∈ bs ∧ e.1 ∉ placed done ∧ e.2 = none := by
  induction bs generalizing done with
  | nil => simp [finish, h]
  | cons b bs ih =>
    change Layered (finish bs (leftOver done b)) ∧
      (∀ a, a ∈ placed (finish bs (leftOver done b)) ↔ _) ∧
      ∀ e, e ∈ finish bs (leftOver done b) ↔ _
    rcases leftOver_cases done b with ⟨hsame, hb⟩ | ⟨hmore, hb⟩
    · rw [hsame]
      obtain ⟨hlayered, hplaced, hmem⟩ := ih h
      refine ⟨hlayered, fun a => ?_, fun e => ?_⟩
      · rw [hplaced, List.mem_cons]
        constructor
        · exact Or.imp_right .inr
        · rintro (ha | rfl | ha)
          · exact .inl ha
          · exact .inl hb
          · exact .inr ha
      · rw [hmem, List.mem_cons]
        constructor
        · exact Or.imp_right fun ⟨hin, hrest⟩ => ⟨.inr hin, hrest⟩
        · rintro (he | ⟨rfl | hin, hnot, hnone⟩)
          · exact .inl he
          · exact absurd hb hnot
          · exact .inr ⟨hin, hnot, hnone⟩
    · rw [hmore]
      obtain ⟨hlayered, hplaced, hmem⟩ := ih (h.root hb)
      refine ⟨hlayered, fun a => ?_, fun e => ?_⟩
      · rw [hplaced, placed_snoc, List.mem_append, List.mem_singleton, List.mem_cons, or_assoc]
      · rw [hmem, placed_snoc, List.mem_append, List.mem_singleton, List.mem_append,
          List.mem_singleton, List.mem_cons]
        constructor
        · rintro ((he | rfl) | ⟨hin, hnot, hnone⟩)
          · exact .inl he
          · exact .inr ⟨.inl rfl, hb, rfl⟩
          · exact .inr ⟨.inr hin, fun hold => hnot (.inl hold), hnone⟩
        · rintro (he | ⟨heq | hin, hnot, hnone⟩)
          · exact .inl (.inl he)
          · exact .inl (.inr (Prod.ext heq hnone))
          · by_cases heq : e.1 = b
            · exact .inl (.inr (Prod.ext heq hnone))
            · exact .inr ⟨hin, fun hold => hold.elim hnot heq, hnone⟩

/-- The place of every element, whatever the order in which they come: a grounded one stands under
what it needs, and any other on top. -/
theorem finish_mem (h : Swept needs as done) (hsat : Saturated needs as done)
    (hinside : ∀ a ∈ as, ∀ p, needs a = some p → p ∈ as) (e : α × Option α) :
    e ∈ finish as done ↔
      e.1 ∈ as ∧ (Grounded needs e.1 ∧ e.2 = needs e.1 ∨ ¬ Grounded needs e.1 ∧ e.2 = none) := by
  obtain ⟨-, -, hmem⟩ := finish_spec as h.layered
  have hplaced : ∀ a ∈ as, a ∈ placed done ↔ Grounded needs a :=
    fun a ha => ⟨h.grounded a, fun hg => hsat.placed_of_grounded hinside hg ha⟩
  rw [hmem]
  constructor
  · rintro (he | ⟨hin, hnot, hnone⟩)
    · have hin := h.inside (mem_placed he)
      exact ⟨hin, .inl ⟨h.grounded _ (mem_placed he), h.exact e he⟩⟩
    · exact ⟨hin, .inr ⟨fun hg => hnot ((hplaced _ hin).2 hg), hnone⟩⟩
  · rintro ⟨hin, ⟨hg, heq⟩ | ⟨hg, hnone⟩⟩
    · obtain ⟨e', he', hfst⟩ := List.mem_map.1 ((hplaced _ hin).2 hg)
      have hsame : e' = e := Prod.ext hfst (by rw [h.exact e' he', hfst, heq])
      exact .inl (hsame ▸ he')
    · exact .inr ⟨hin, fun hdone => hg ((hplaced _ hin).1 hdone), hnone⟩

end Placement
