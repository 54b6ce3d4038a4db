import CentralOps.Lib.Dialog

set_option autoImplicit true

structure Typestate (P Q : Type) (A : Q → Type) where
  mayAsk : P → Q → Prop
  next : P → (q : Q) → A q → P

namespace Dialog

variable {P Q : Type} {A : Q → Type} {α β : Type} {T : Typestate P Q A}

def Follows (T : Typestate P Q A) (last : P → α → Prop) : Dialog Q A α → P → Prop
  | done a, p => last p a
  | ask q next, p => T.mayAsk p q ∧ ∀ r, (next r).Follows T last (T.next p q r)

theorem Follows.bind {last : P → β → Prop} {t : Dialog Q A α} {f : α → Dialog Q A β}
    (h : t.Follows T (fun p a => (f a).Follows T last p) p) : (t >>= f).Follows T last p := by
  change (t.bind f).Follows T last p
  induction t generalizing p with
  | done a => exact h
  | ask q next ih => exact ⟨h.1, fun r => ih r (h.2 r)⟩

theorem Follows.weaken {last last' : P → α → Prop} {t : Dialog Q A α} (h : t.Follows T last p)
    (hlast : ∀ p a, last p a → last' p a) : t.Follows T last' p := by
  induction t generalizing p with
  | done a => exact hlast p a h
  | ask q next ih => exact ⟨h.1, fun r => ih r (h.2 r)⟩

theorem Follows.asks {last : P → α → Prop} {ok : Q → Prop} {t : Dialog Q A α}
    (h : t.Follows T last p) (hok : ∀ p q, T.mayAsk p q → ok q) : t.Asks ok := by
  induction t generalizing p with
  | done a => exact trivial
  | ask q next ih => exact ⟨hok p q h.1, fun r => ih r (h.2 r)⟩

theorem Follows.mono {last : P → α → Prop} {mayAsk : P → Q → Prop} {t : Dialog Q A α}
    (h : t.Follows T last p) (hmore : ∀ p q, T.mayAsk p q → mayAsk p q) :
    t.Follows { T with mayAsk := mayAsk } last p := by
  induction t generalizing p with
  | done a => exact h
  | ask q next ih => exact ⟨hmore p q h.1, fun r => ih r (h.2 r)⟩

theorem Asks.follows {ok : Q → Prop} {t : Dialog Q A α} (h : t.Asks ok) :
    t.Follows (⟨fun _ => ok, fun p _ _ => p⟩ : Typestate Unit Q A) (fun p _ => p = ()) () := by
  induction t with
  | done a => exact rfl
  | ask q next ih => exact ⟨h.1, fun r => ih r (h.2 r)⟩

end Dialog

namespace Crew

variable {S ι C P Q : Type} {A : Q → Type} {α : Type} {R : CrewRules S ι C Q A α}
  {T : Typestate P Q A} {phase : S → ι → P} {rest : P} {I : S → Prop}

/-- Every worker is in the phase in which it may go on as its program does. -/
def InPhase (T : Typestate P Q A) (rest : P) (o : Option (C × Dialog Q A α)) (p : P) : Prop :=
  match o with
  | none => p = rest
  | some (_, t) => t.Follows T (fun p _ => p = rest) p

/-- An invariant that each answer keeps for a worker in its phase. -/
def Phased (T : Typestate P Q A) (phase : S → ι → P) (rest : P) (I : S → Prop)
    (x : Crew S ι C Q A α) : Prop :=
  I x.shared ∧ ∀ i, InPhase T rest (x.running i) (phase x.shared i)

/-- A crew whose programs follow a protocol keeps what each answer within the protocol keeps. -/
theorem Reaches.phased [DecidableEq ι]
    (hstart : ∀ s i c, R.starts s i c → (R.program c).Follows T (fun p _ => p = rest) rest)
    (hanswer : ∀ i s q r u, I s → T.mayAsk (phase s i) q → R.answers i s q r u →
      I u ∧ phase u i = T.next (phase s i) q r ∧ ∀ j, j ≠ i → phase u j = phase s j)
    (hmove : ∀ s u, I s → R.moves s u → I u ∧ ∀ i, phase u i = phase s i) {x y : Crew S ι C Q A α}
    (h : Reaches R x y) (hx : Phased T phase rest I x) : Phased T phase rest I y := by
  induction h with
  | refl => exact hx
  | @tail y z _ hlast ih =>
    have hput : ∀ i o u, I u → (∀ j, j ≠ i → phase u j = phase y.shared j) →
        InPhase T rest o (phase u i) →
        Phased T phase rest I { (y.put i o) with shared := u } := by
      intro i o u hu hothers ho
      apply And.intro hu
      intro j
      by_cases hji : j = i
      · subst hji
        change InPhase T rest ((y.put j o).running j) (phase u j)
        rw [put_running_self]
        exact ho
      · change InPhase T rest ((y.put i o).running j) (phase u j)
        rw [put_running_ne y o hji, hothers j hji]
        exact ih.2 j
    cases hlast with
    | @start i c hidle hs =>
      have hphase := ih.2 i
      rw [hidle] at hphase
      apply hput i _ y.shared ih.1 (fun j _ => rfl)
      change (R.program c).Follows T _ (phase y.shared i)
      rw [show phase y.shared i = rest from hphase]
      exact hstart y.shared i c hs
    | @answer i c q next r u hrun hr =>
      have hphase := ih.2 i
      rw [hrun] at hphase
      obtain ⟨hu, hnext, hothers⟩ := hanswer i y.shared q r u ih.1 hphase.1 hr
      apply hput i _ u hu hothers
      change (next r).Follows T _ (phase u i)
      rw [hnext]
      exact hphase.2 r
    | @finish i c a hrun =>
      have hphase := ih.2 i
      rw [hrun] at hphase
      exact hput i none y.shared ih.1 (fun j _ => rfl) hphase
    | @move u hm =>
      obtain ⟨hu, hsame⟩ := hmove y.shared u ih.1 hm
      apply And.intro hu
      intro i
      change InPhase T rest (y.running i) (phase u i)
      rw [hsame i]
      exact ih.2 i

end Crew
