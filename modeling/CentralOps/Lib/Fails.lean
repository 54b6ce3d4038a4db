import Mathlib.Data.List.Forall2
import CentralOps.Lib.Proc

set_option autoImplicit true

namespace Proc

variable {σ ε α β : Type} {E : ε → Prop} {s : σ}

/-- From `s` the procedure crashes, or raises an exception in `E`. -/
def Fails (E : ε → Prop) (m : Proc σ ε α) (s : σ) : Prop :=
  match m s with
  | .ok _ _ => False
  | .raised e _ => E e
  | .crashed _ => True

/-- From `s` the procedure returns, and `P` holds of its value and state. -/
def Then (m : Proc σ ε α) (P : α → σ → Prop) (s : σ) : Prop :=
  match m s with
  | .ok a s' => P a s'
  | _ => False

instance decidableThen {m : Proc σ ε α} {P : α → σ → Prop} [∀ a s, Decidable (P a s)] (s : σ) :
    Decidable (Then m P s) :=
  match h : m s with
  | .ok a s' => decidable_of_iff (P a s') (by rw [Then, h])
  | .raised _ _ => isFalse (by rw [Then, h]; exact id)
  | .crashed _ => isFalse (by rw [Then, h]; exact id)

theorem then_get_bind (f : σ → Proc σ ε α) (P : α → σ → Prop) (s : σ) :
    Then (get >>= f) P s ↔ Then (f s) P s := Iff.rfl

theorem then_congr {m : Proc σ ε α} {P Q : α → σ → Prop} (h : ∀ a s, P a s ↔ Q a s) :
    Then m P s ↔ Then m Q s := by
  unfold Then
  cases m s with
  | ok a s' => exact h a s'
  | raised e s' => exact Iff.rfl
  | crashed s' => exact Iff.rfl

theorem not_then_of_never {m : Proc σ ε α} {P : α → σ → Prop} (h : ∀ a s, ¬ P a s) :
    ¬ Then m P s := by
  unfold Then
  cases m s with
  | ok a s' => exact h a s'
  | raised e s' => exact id
  | crashed s' => exact id

theorem fails_pure (a : α) : ¬ Fails E (pure a : Proc σ ε α) s := id

theorem fails_raise (e : ε) : Fails E (raise e : Proc σ ε α) s ↔ E e := Iff.rfl

theorem fails_bind (m : Proc σ ε α) (f : α → Proc σ ε β) :
    Fails E (m >>= f) s ↔ Fails E m s ∨ Then m (fun a => Fails E (f a)) s := by
  unfold Fails Then
  change (match (match m s with
    | .ok a s' => f a s'
    | .raised e s' => .raised e s'
    | .crashed s' => .crashed s') with
    | .ok _ _ => False
    | .raised e _ => E e
    | .crashed _ => True) ↔ _
  cases m s with
  | ok a s' => exact (false_or _).symm.to_iff
  | raised e s' => exact (or_false _).symm.to_iff
  | crashed s' => exact (or_false _).symm.to_iff

theorem fails_bind_of_not {m : Proc σ ε α} (hm : ¬ Fails E m s) (f : α → Proc σ ε β) :
    Fails E (m >>= f) s ↔ Then m (fun a => Fails E (f a)) s := by
  rw [fails_bind]
  exact or_iff_right hm

theorem fails_attempt {H : ε → Prop} (m : Proc σ ε α) (k : Except ε α → Proc σ ε β)
    (hok : ∀ a s, ¬ Fails E (k (.ok a)) s) (herr : ∀ e s, Fails E (k (.error e)) s ↔ H e) :
    Fails E (attempt m >>= k) s ↔ Fails H m s := by
  rw [fails_bind]
  unfold Fails Then attempt
  cases hm : m s with
  | ok a s' => simpa [Fails] using hok a s'
  | raised e s' => simpa [Fails] using herr e s'
  | crashed s' => simp

/-- Some call that the loop reaches meets `H`. -/
def EachReaches (f : α → Proc σ ε β) (H : α → σ → Prop) : List α → σ → Prop
  | [], _ => False
  | a :: as, s => H a s ∨ Then (f a) (fun _ => EachReaches f H as) s

theorem fails_each {f : α → Proc σ ε β} {H : α → σ → Prop}
    (h : ∀ a s, Fails E (f a) s ↔ H a s) (as : List α) :
    ∀ s, Fails E (each f as) s ↔ EachReaches f H as s := by
  induction as with
  | nil => intro s; exact Iff.rfl
  | cons a as ih =>
    intro s
    rw [each, fails_bind, EachReaches, h]
    refine or_congr Iff.rfl (then_congr fun b s' => ?_)
    rw [fails_bind, ih]
    exact or_iff_left (not_then_of_never fun _ _ => fails_pure _)

theorem not_fails_each {f : α → Proc σ ε β} (h : ∀ a s, ¬ Fails E (f a) s) (as : List α) :
    ∀ s, ¬ Fails E (each f as) s := by
  induction as with
  | nil => intro s; exact id
  | cons a as ih =>
    intro s
    rw [each, fails_bind_of_not (h a s)]
    refine not_then_of_never fun b s' => ?_
    rw [fails_bind_of_not (ih s')]
    exact not_then_of_never fun _ _ => fails_pure _

/-- Some call that the loop reaches, with what the loop carries there, meets `H`. -/
def FoldReaches (f : β → α → Proc σ ε β) (H : β → α → σ → Prop) : β → List α → σ → Prop
  | _, [], _ => False
  | b, a :: as, s => H b a s ∨ Then (f b a) (fun b' => FoldReaches f H b' as) s

instance decidableFoldReaches {f : β → α → Proc σ ε β} {H : β → α → σ → Prop}
    [∀ b a s, Decidable (H b a s)] : ∀ b as s, Decidable (FoldReaches f H b as s)
  | _, [], _ => isFalse id
  | b, a :: as, s =>
    have _rest : ∀ b' s', Decidable (FoldReaches f H b' as s') :=
      fun b' s' => decidableFoldReaches b' as s'
    have _first : Decidable (Then (f b a) (fun b' => FoldReaches f H b' as) s) := decidableThen s
    inferInstanceAs (Decidable (H b a s ∨ _))

theorem fails_fold {f : β → α → Proc σ ε β} {H : β → α → σ → Prop}
    (h : ∀ b a s, Fails E (f b a) s ↔ H b a s) (as : List α) :
    ∀ b s, Fails E (fold f b as) s ↔ FoldReaches f H b as s := by
  induction as with
  | nil => intro b s; exact Iff.rfl
  | cons a as ih =>
    intro b s
    rw [fold, fails_bind, FoldReaches, h]
    exact or_congr Iff.rfl (then_congr fun b' s' => ih b' s')

theorem not_foldReaches {f : β → α → Proc σ ε β} {H : β → α → σ → Prop}
    (h : ∀ b a s, ¬ H b a s) (as : List α) : ∀ b s, ¬ FoldReaches f H b as s := by
  induction as with
  | nil => intro b s; exact id
  | cons a as ih =>
    rintro b s (hhead | htail)
    · exact h b a s hhead
    · exact not_then_of_never ih htail

end Proc

theorem Except.mapM_error_mem {f : α → Except ε β} {l : List α} (h : l.mapM f = .error e) :
    ∃ a ∈ l, f a = .error e := by
  induction l with
  | nil => cases h
  | cons a l ih =>
    rw [List.mapM_cons] at h
    cases ha : f a with
    | error e' =>
      rw [ha] at h
      cases h
      exact ⟨a, List.mem_cons_self, ha⟩
    | ok b =>
      rw [ha] at h
      cases hl : l.mapM f with
      | error e' =>
        rw [hl] at h
        cases h
        obtain ⟨c, hc, hf⟩ := ih hl
        exact ⟨c, List.mem_cons_of_mem a hc, hf⟩
      | ok bs =>
        rw [hl] at h
        cases h

theorem Except.mapM_error_iff (f : α → Except ε β) (l : List α) :
    (∃ e, l.mapM f = .error e) ↔ ∃ a ∈ l, ∃ e, f a = .error e := by
  induction l with
  | nil => exact iff_of_false (fun ⟨e, h⟩ => nomatch h) (by simp)
  | cons a l ih =>
    rw [List.mapM_cons]
    cases ha : f a with
    | error e => simp [ha, bind, Except.bind]
    | ok b =>
      simp only [List.mem_cons, exists_eq_or_imp, ha, reduceCtorEq, exists_false, false_or, ← ih]
      cases hl : l.mapM f with
      | error e => simp [bind, Except.bind]
      | ok bs => simp [bind, Except.bind, pure, Except.pure]

theorem Except.bind_eq_ok {m : Except ε α} {f : α → Except ε β} (h : m >>= f = .ok b) :
    ∃ a, m = .ok a ∧ f a = .ok b := by
  cases m with
  | error e => cases h
  | ok a => exact ⟨a, rfl, h⟩

theorem Except.ok_of_toOption {x : Except ε α} (h : x.toOption = some a) : x = .ok a := by
  cases x with
  | error => cases h
  | ok b =>
    cases h
    rfl

theorem Except.mapM_ok_iff {f : α → Except ε β} {xs : List α} {ys : List β} :
    xs.mapM f = .ok ys ↔ List.Forall₂ (fun x y => f x = .ok y) xs ys := by
  induction xs generalizing ys with
  | nil =>
    rw [List.mapM_nil, List.forall₂_nil_left_iff]
    exact ⟨fun h => by cases h; rfl, fun h => by rw [h]; rfl⟩
  | cons x xs ih =>
    rw [List.mapM_cons]
    cases hx : f x with
    | error e =>
      constructor
      · intro h
        cases h
      · intro h
        cases h with
        | cons hy _ =>
          rw [hx] at hy
          cases hy
    | ok y =>
      constructor
      · intro h
        cases hrest : xs.mapM f with
        | error e =>
          rw [hrest] at h
          cases h
        | ok zs =>
          rw [hrest] at h
          cases h
          exact .cons hx (ih.1 hrest)
      · intro h
        cases h with
        | cons hy hrest =>
          rw [hx] at hy
          cases hy
          rw [ih.2 hrest]
          rfl
