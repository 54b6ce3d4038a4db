import CentralOps.Lib.Dialog

set_option autoImplicit true

namespace Dialog

variable {Q : Type} {A : Q → Type} {α : Type}

/-- What may be left of a program after some answers. -/
inductive Leaves (t : Dialog Q A α) : Dialog Q A α → Prop
  | refl : Leaves t t
  | answer {q : Q} {next : A q → Dialog Q A α} (r : A q) : Leaves t (.ask q next) → Leaves t (next r)

variable {t t' : Dialog Q A α} {p : Q → Prop}

theorem Asks.leaves (ht : t.Asks p) (h : Leaves t t') : t'.Asks p := by
  induction h with
  | refl => exact ht
  | answer r _ ih => exact ih.2 r

end Dialog

namespace Crew

variable {S ι C Q : Type} {A : Q → Type} {α : Type} {R : CrewRules S ι C Q A α}

def Underway (R : CrewRules S ι C Q A α) (x : Crew S ι C Q A α) : Prop :=
  ∀ i c t, x.running i = some (c, t) → (R.program c).Leaves t

variable [DecidableEq ι] {x y : Crew S ι C Q A α}

theorem Underway.put (hx : Underway R x) (ho : ∀ c t, o = some (c, t) → (R.program c).Leaves t) :
    Underway R (x.put i o) := by
  intro j c t hj
  by_cases hji : j = i
  · subst hji
    rw [put_running_self] at hj
    exact ho c t hj
  · rw [put_running_ne x o hji] at hj
    exact hx j c t hj

theorem Underway.step (hx : Underway R x) (h : Step R x y) : Underway R y := by
  cases h with
  | start hidle hs =>
    apply hx.put
    intro c t ht
    cases ht
    exact .refl
  | @answer i c q next r u hrun hr =>
    have hnext : Underway R (x.put i (some (c, next r))) := by
      apply hx.put
      intro c' t ht
      cases ht
      exact .answer r (hx i c _ hrun)
    exact hnext
  | finish hrun =>
    apply hx.put
    intro c t ht
    cases ht
  | move hm => exact hx

theorem Reaches.underway (h : Reaches R x y) (hx : Underway R x) : Underway R y := by
  induction h with
  | refl => exact hx
  | tail _ hlast ih => exact ih.step hlast

theorem Reaches.keeps {p : Q → Prop} {I : S → Prop} (hask : ∀ c, (R.program c).Asks p)
    (hanswer : ∀ i s q r u, p q → I s → R.answers i s q r u → I u)
    (hmove : ∀ s u, I s → R.moves s u → I u) (h : Reaches R x y) (hx : Underway R x)
    (hI : I x.shared) : I y.shared := by
  induction h with
  | refl => exact hI
  | @tail y z hrun hlast ih =>
    have hy : Underway R y := Reaches.underway hrun hx
    cases hlast with
    | start hidle hs => exact ih
    | answer hrun hr => exact hanswer _ _ _ _ _ ((hask _).leaves (hy _ _ _ hrun)).1 ih hr
    | finish hrun => exact ih
    | move hm => exact hmove _ _ ih hm

theorem Step.ends {q : Q} {next : A q → Dialog Q A α} (h : Step R x y)
    (hx : x.running i = some (c, .ask q next)) (hy : y.running i = some (c, .done a)) :
    ∃ r u, R.answers i x.shared q r u ∧ next r = .done a ∧ y.shared = u := by
  have hsame : y.running i ≠ x.running i := by
    intro he
    rw [hx, hy] at he
    cases he
  cases h with
  | @start j c' hidle hs =>
    by_cases hij : i = j
    · subst hij
      rw [hx] at hidle
      cases hidle
    · exact absurd (put_running_ne x _ hij) hsame
  | @answer j c' q' next' r u hrun hr =>
    by_cases hij : i = j
    · subst hij
      rw [hx] at hrun
      cases hrun
      have hdone : (x.put i (some (c, next r))).running i = some (c, .done a) := hy
      rw [put_running_self] at hdone
      exact ⟨r, u, hr, (Prod.mk.inj (Option.some.inj hdone)).2, rfl⟩
    · exact absurd (put_running_ne x _ hij) hsame
  | @finish j c' a' hrun =>
    by_cases hij : i = j
    · subst hij
      rw [hx] at hrun
      cases hrun
    · exact absurd (put_running_ne x _ hij) hsame
  | move hm => exact absurd rfl hsame

end Crew
