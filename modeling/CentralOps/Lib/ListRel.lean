import Mathlib.Data.List.Forall2
import Mathlib.Data.List.ReduceOption
import Mathlib.Data.Option.Basic

set_option autoImplicit true

section Lists
variable {A : α → β → Prop}

theorem any_rel {p : α → Bool} {q : β → Bool} (hpq : ∀ a b, A a b → p a = q b)
    (h : List.Forall₂ A as bs) : as.any p = bs.any q := by
  induction h with
  | nil => rfl
  | cons hab _ ih => rw [List.any_cons, List.any_cons, hpq _ _ hab, ih]

theorem mapM_eq {m : Type → Type} [Monad m] [LawfulMonad m] {f : α → m γ} {g : β → m γ}
    (hfg : ∀ a b, A a b → f a = g b) (h : List.Forall₂ A as bs) : as.mapM f = bs.mapM g := by
  induction h with
  | nil => rfl
  | cons hab _ ih => rw [List.mapM_cons, List.mapM_cons, hfg _ _ hab, ih]

theorem map_eq {f : α → γ} {g : β → γ} (hfg : ∀ a b, A a b → f a = g b)
    (h : List.Forall₂ A as bs) : as.map f = bs.map g := by
  induction h with
  | nil => rfl
  | cons hab _ ih => rw [List.map_cons, List.map_cons, hfg _ _ hab, ih]

theorem filter_rel {p : α → Bool} {q : β → Bool} (hpq : ∀ a b, A a b → p a = q b)
    (h : List.Forall₂ A as bs) : List.Forall₂ A (as.filter p) (bs.filter q) :=
  List.rel_filter (fun a b hab => Bool.eq_iff_iff.1 (hpq a b hab)) h

theorem getElem?_rel (h : List.Forall₂ A as bs) (i : Nat) : Option.Rel A as[i]? bs[i]? := by
  induction h generalizing i with
  | nil => exact .none
  | cons hab _ ih =>
    cases i with
    | zero => exact .some hab
    | succ i => exact ih i

theorem zipIdx_rel (h : List.Forall₂ A as bs) (n : Nat) :
    List.Forall₂ (fun p q => p.2 = q.2 ∧ A p.1 q.1) (as.zipIdx n) (bs.zipIdx n) := by
  induction h generalizing n with
  | nil => exact .nil
  | cons hab _ ih => exact .cons ⟨rfl, hab⟩ (ih (n + 1))

theorem find_map_rel {C : γ → δ → Prop} {p : α → Bool} {q : β → Bool} {f : α → γ} {g : β → δ}
    (hpq : ∀ a b, A a b → p a = q b) (hfg : ∀ a b, A a b → C (f a) (g b))
    (h : List.Forall₂ A as bs) : Option.Rel C ((as.find? p).map f) ((bs.find? q).map g) := by
  induction h with
  | nil => exact .none
  | @cons a b as bs hab _ ih =>
    rw [List.find?_cons, List.find?_cons, hpq a b hab]
    cases q b with
    | true => exact .some (hfg a b hab)
    | false => exact ih

theorem zipWith_rel {B : γ → δ → Prop} {C : ι → κ → Prop} {f : α → γ → ι} {g : β → δ → κ}
    (hfg : ∀ a b c d, A a b → B c d → C (f a c) (g b d)) (hab : List.Forall₂ A as bs) :
    ∀ {cs ds}, List.Forall₂ B cs ds →
      List.Forall₂ C (List.zipWith f as cs) (List.zipWith g bs ds) := by
  induction hab with
  | nil => intro cs ds hcd; exact .nil
  | cons hab _ ih =>
    intro cs ds hcd
    cases hcd with
    | nil => exact .nil
    | cons hcd hrest => exact .cons (hfg _ _ _ _ hab hcd) (ih hrest)

theorem flatMap_eq {f : α → List γ} {g : β → List γ} (hfg : ∀ a b, A a b → f a = g b)
    (h : List.Forall₂ A as bs) : as.flatMap f = bs.flatMap g := by
  induction h with
  | nil => rfl
  | cons hab _ ih => rw [List.flatMap_cons, List.flatMap_cons, hfg _ _ hab, ih]

end Lists

section Options
variable {A : α → β → Prop} {B : γ → δ → Prop} {x : Option α} {y : Option β}

theorem isSome_rel (h : Option.Rel A x y) : x.isSome = y.isSome := by
  cases h with
  | none => rfl
  | some _ => rfl

theorem getD_rel (h : Option.Rel A x y) (hd : A a b) : A (x.getD a) (y.getD b) := by
  cases h with
  | none => exact hd
  | some hab => exact hab

theorem option_bind_rel {f : α → Option γ} {g : β → Option δ} (h : Option.Rel A x y)
    (hfg : ∀ a b, A a b → Option.Rel B (f a) (g b)) : Option.Rel B (x.bind f) (y.bind g) := by
  cases h with
  | none => exact .none
  | some hab => exact hfg _ _ hab

theorem option_bind_same {x : Option ι} {f : ι → Option γ} {g : ι → Option δ}
    (hfg : ∀ a, Option.Rel B (f a) (g a)) : Option.Rel B (x.bind f) (x.bind g) := by
  cases x with
  | none => exact .none
  | some a => exact hfg a

theorem option_map_rel {f : α → γ} {g : β → δ} (h : Option.Rel A x y)
    (hfg : ∀ a b, A a b → B (f a) (g b)) : Option.Rel B (x.map f) (y.map g) := by
  cases h with
  | none => exact .none
  | some hab => exact .some (hfg _ _ hab)

theorem option_filter_rel {p : α → Bool} {q : β → Bool} (h : Option.Rel A x y)
    (hpq : ∀ a b, A a b → p a = q b) : Option.Rel A (x.filter p) (y.filter q) := by
  cases h with
  | none => exact .none
  | @some a b hab =>
    rw [Option.filter_some, Option.filter_some, hpq a b hab]
    cases q b with
    | true => exact .some hab
    | false => exact .none

theorem option_rel_mono {C : α → β → Prop} (hAC : ∀ a b, A a b → C a b) (h : Option.Rel A x y) :
    Option.Rel C x y := by
  cases h with
  | none => exact .none
  | some hab => exact .some (hAC _ _ hab)

theorem option_rel_refl {C : α → α → Prop} (hC : ∀ a, C a a) (x : Option α) : Option.Rel C x x := by
  cases x with
  | none => exact .none
  | some a => exact .some (hC a)

theorem option_eq_of_rel {x y : Option α} (h : Option.Rel Eq x y) : x = y := by
  cases h with
  | none => rfl
  | some hab => rw [hab]

theorem option_mapM_rel {f : α → Option γ} {g : β → Option δ}
    (hfg : ∀ a b, A a b → Option.Rel B (f a) (g b)) (h : List.Forall₂ A as bs) :
    Option.Rel (List.Forall₂ B) (as.mapM f) (bs.mapM g) := by
  induction h with
  | nil => exact .some .nil
  | cons hab _ ih =>
    rw [List.mapM_cons, List.mapM_cons]
    refine option_bind_rel (hfg _ _ hab) fun c d hcd => ?_
    exact option_bind_rel ih fun cs ds hrest => .some (.cons hcd hrest)

end Options
