import Mathlib.Data.Option.Basic
import CentralOps.Lib.Fails

set_option autoImplicit true

/-- Two runs end alike: related values, or the same exception, in related states. -/
inductive Ending.Rel (L : σ → σ' → Prop) (Q : α → β → Prop) :
    Ending σ ε α → Ending σ' ε β → Prop where
  | ok (hq : Q a b) (hs : L s s') : Rel L Q (.ok a s) (.ok b s')
  | raised (e : ε) (hs : L s s') : Rel L Q (.raised e s) (.raised e s')
  | crashed (hs : L s s') : Rel L Q (.crashed s) (.crashed s')

theorem Ending.Rel.state {L : σ → σ' → Prop} {Q : α → β → Prop} {r : Ending σ ε α}
    {r' : Ending σ' ε β} (h : Rel L Q r r') : L r.state r'.state := by
  cases h with
  | ok _ hs => exact hs
  | raised _ hs => exact hs
  | crashed hs => exact hs

/-- Related values, or the same error. -/
inductive Except.Rel (Q : α → β → Prop) : Except ε α → Except ε β → Prop where
  | ok (hq : Q a b) : Rel Q (.ok a) (.ok b)
  | error (e : ε) : Rel Q (.error e) (.error e)

namespace Proc

variable {σ σ' ε α β γ δ : Type} {L : σ → σ' → Prop} {Q : α → β → Prop} {P : γ → δ → Prop}
  {s : σ} {s' : σ'}

theorem rel_pure {t : σ'} (hs : L s t) (h : Q a b) :
    Ending.Rel L Q ((pure a : Proc σ ε α) s) ((pure b : Proc σ' ε β) t) := .ok h hs

theorem rel_raise (hs : L s s') (e : ε) :
    Ending.Rel L Q ((raise e : Proc σ ε α) s) ((raise e : Proc σ' ε β) s') := .raised e hs

theorem rel_bind_of {m : Proc σ ε γ} {m' : Proc σ' ε δ} {f : γ → Proc σ ε α}
    {f' : δ → Proc σ' ε β} (hm : Ending.Rel L P (m s) (m' s'))
    (hf : ∀ a b t t', m s = .ok a t → P a b → L t t' → Ending.Rel L Q (f a t) (f' b t')) :
    Ending.Rel L Q ((m >>= f) s) ((m' >>= f') s') := by
  rw [bind_apply, bind_apply]
  generalize m' s' = r' at hm
  cases hr : m s with
  | ok a t =>
    rw [hr] at hm
    cases hm with
    | ok hq hs => exact hf _ _ _ _ hr hq hs
  | raised e t =>
    rw [hr] at hm
    cases hm with
    | raised e hs => exact .raised e hs
  | crashed t =>
    rw [hr] at hm
    cases hm with
    | crashed hs => exact .crashed hs

theorem rel_bind {m : Proc σ ε γ} {m' : Proc σ' ε δ} {f : γ → Proc σ ε α} {f' : δ → Proc σ' ε β}
    (hm : Ending.Rel L P (m s) (m' s'))
    (hf : ∀ a b t t', P a b → L t t' → Ending.Rel L Q (f a t) (f' b t')) :
    Ending.Rel L Q ((m >>= f) s) ((m' >>= f') s') :=
  rel_bind_of hm fun a b t t' _ => hf a b t t'

theorem rel_attempt_bind {m : Proc σ ε γ} {m' : Proc σ' ε δ} {k : Except ε γ → Proc σ ε α}
    {k' : Except ε δ → Proc σ' ε β} (hm : Ending.Rel L P (m s) (m' s'))
    (hok : ∀ a b t t', P a b → L t t' → Ending.Rel L Q (k (.ok a) t) (k' (.ok b) t'))
    (herr : ∀ e t t', L t t' → Ending.Rel L Q (k (.error e) t) (k' (.error e) t')) :
    Ending.Rel L Q ((attempt m >>= k) s) ((attempt m' >>= k') s') := by
  have hattempt : Ending.Rel L (Except.Rel P) (attempt m s) (attempt m' s') := by
    unfold attempt
    generalize m s = r at hm
    generalize m' s' = r' at hm
    cases hm with
    | ok hq hs => exact .ok (.ok hq) hs
    | raised e hs => exact .ok (.error e) hs
    | crashed hs => exact .crashed hs
  refine rel_bind hattempt fun r r' t t' hr ht => ?_
  cases hr with
  | ok hq => exact hok _ _ t t' hq ht
  | error e => exact herr e t t' ht

theorem rel_each {f : γ → Proc σ ε α} {f' : δ → Proc σ' ε β}
    (hf : ∀ a b t t', P a b → L t t' → Ending.Rel L Q (f a t) (f' b t'))
    (h : List.Forall₂ P as bs) :
    ∀ s s', L s s' → Ending.Rel L (List.Forall₂ Q) (each f as s) (each f' bs s') := by
  induction h with
  | nil => intro s s' hs; exact rel_pure hs .nil
  | cons hab _ ih =>
    intro s s' hs
    refine rel_bind (hf _ _ s s' hab hs) fun x y t t' hxy ht => ?_
    refine rel_bind (ih t t' ht) fun xs ys u u' hxys hu => ?_
    exact rel_pure hu (.cons hxy hxys)

/-- Two loops whose steps are related wherever the first one does not reach `H`. -/
theorem rel_fold {f : α → γ → Proc σ ε α} {f' : β → δ → Proc σ' ε β} {H : α → γ → σ → Prop}
    (hf : ∀ x y a b t t', Q x y → P a b → L t t' → ¬ H x a t →
      Ending.Rel L Q (f x a t) (f' y b t'))
    (h : List.Forall₂ P as bs) :
    ∀ x y s s', Q x y → L s s' → ¬ FoldReaches f H x as s →
      Ending.Rel L Q (fold f x as s) (fold f' y bs s') := by
  induction h with
  | nil => intro x y s s' hxy hs _; exact rel_pure hs hxy
  | @cons a b as bs hab _ ih =>
    intro x y s s' hxy hs hH
    refine rel_bind_of (hf x y a b s s' hxy hab hs fun h => hH (.inl h)) fun x' y' t t' hok => ?_
    intro hxy' ht
    refine ih x' y' t t' hxy' ht fun h => hH (.inr ?_)
    unfold Then
    rw [hok]
    exact h

theorem rel_fold_always {f : α → γ → Proc σ ε α} {f' : β → δ → Proc σ' ε β}
    (hf : ∀ x y a b t t', Q x y → P a b → L t t' → Ending.Rel L Q (f x a t) (f' y b t'))
    (h : List.Forall₂ P as bs) (hxy : Q x y) (hs : L s s') :
    Ending.Rel L Q (fold f x as s) (fold f' y bs s') :=
  rel_fold (H := fun _ _ _ => False) (fun x y a b t t' hq hp ht _ => hf x y a b t t' hq hp ht) h
    x y s s' hxy hs (not_foldReaches (fun _ _ _ => id) as x s)

end Proc
