import Mathlib.Logic.Relation

set_option autoImplicit true

structure System (σ α : Type) where
  enabled : σ → α → Prop
  next : σ → α → σ

namespace System

variable {σ α : Type} (M : System σ α)

/-- One step by an action that the state allows. -/
def Step (allowed : σ → α → Prop) (s s' : σ) : Prop :=
  ∃ a, M.enabled s a ∧ allowed s a ∧ s' = M.next s a

/-- Any number of such steps. -/
def Reaches (allowed : σ → α → Prop) : σ → σ → Prop :=
  Relation.ReflTransGen (M.Step allowed)

variable {M} {allowed allowed' : σ → α → Prop}

theorem Reaches.invariant {I : σ → Prop}
    (hstep : ∀ s a, I s → M.enabled s a → allowed s a → I (M.next s a))
    (h : M.Reaches allowed s s') (hs : I s) : I s' := by
  induction h with
  | refl => exact hs
  | tail _ hlast ih =>
    obtain ⟨a, he, ha, rfl⟩ := hlast
    exact hstep _ a ih he ha

theorem Reaches.mono (hle : ∀ s a, allowed s a → allowed' s a)
    (h : M.Reaches allowed s s') : M.Reaches allowed' s s' := by
  refine Relation.ReflTransGen.mono ?_ s s' h
  rintro t t' ⟨a, he, ha, rfl⟩
  exact ⟨a, he, hle t a ha, rfl⟩

theorem Reaches.exit {P : σ → Prop} (h : M.Reaches allowed s s') (hs : P s) (hs' : ¬ P s') :
    ∃ t a, M.Reaches allowed s t ∧ P t ∧ M.enabled t a ∧ allowed t a ∧
      ¬ P (M.next t a) ∧ M.Reaches allowed (M.next t a) s' := by
  induction h with
  | refl => exact absurd hs hs'
  | @tail t u hrun hlast ih =>
    by_cases ht : P t
    · obtain ⟨a, he, ha, rfl⟩ := hlast
      exact ⟨t, a, hrun, ht, he, ha, hs', .refl⟩
    · obtain ⟨v, a, hv, hPv, he, ha, hn, hrest⟩ := ih ht
      exact ⟨v, a, hv, hPv, he, ha, hn, hrest.tail hlast⟩

theorem Reaches.step (h : M.Reaches allowed s t) (a : α) (he : M.enabled t a) (ha : allowed t a) :
    M.Reaches allowed s (M.next t a) :=
  Relation.ReflTransGen.tail h ⟨a, he, ha, rfl⟩

def Follows (allowed : σ → α → Prop) : σ → List α → Prop
  | _, [] => True
  | s, a :: as => M.enabled s a ∧ allowed s a ∧ Follows allowed (M.next s a) as

instance decidableFollows (allowed : σ → α → Prop) [∀ s a, Decidable (M.enabled s a)]
    [∀ s a, Decidable (allowed s a)] : (s : σ) → (as : List α) → Decidable (M.Follows allowed s as)
  | _, [] => isTrue trivial
  | s, a :: as =>
    have := decidableFollows allowed (M.next s a) as
    inferInstanceAs (Decidable (_ ∧ _ ∧ _))

theorem Follows.reaches {as : List α} (h : M.Follows allowed s as) :
    M.Reaches allowed s (as.foldl M.next s) := by
  induction as generalizing s with
  | nil => exact .refl
  | cons a as ih => exact Relation.ReflTransGen.head ⟨a, h.1, h.2.1, rfl⟩ (ih h.2.2)

end System
