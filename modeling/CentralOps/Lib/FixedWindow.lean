import Mathlib.Algebra.Order.Ring.Rat
import Mathlib.Tactic.Linarith

set_option autoImplicit true

/-! Instants are counted in windows of one length: a window begins at the first instant after the
end of the window before. Lists of instants have the newest first. -/

namespace FixedWindow

/-- The start of the window of an instant, and the number of the instant in it. -/
def place (w : Rat) : Rat → List Rat → Rat × Nat
  | t, [] => (t, 1)
  | t, s :: ts =>
    if t ≤ (place w s ts).1 + w then ((place w s ts).1, (place w s ts).2 + 1) else (t, 1)

/-- How many of the instants from `a` to `a + w` come before the limit of their window. -/
def early (w : Rat) (limit : Int) (a : Rat) : List Rat → Nat
  | [] => 0
  | t :: ts =>
    if a ≤ t ∧ t < a + w ∧ ((place w t ts).2 : Int) < limit then early w limit a ts + 1
    else early w limit a ts

variable {w t s a : Rat} {ts : List Rat} {limit : Int}

theorem place_stay (h : t ≤ (place w s ts).1 + w) :
    place w t (s :: ts) = ((place w s ts).1, (place w s ts).2 + 1) := if_pos h

theorem place_begin (h : ¬ t ≤ (place w s ts).1 + w) : place w t (s :: ts) = (t, 1) := if_neg h

theorem place_pos (w t : Rat) (ts : List Rat) : 1 ≤ (place w t ts).2 := by
  cases ts with
  | nil => exact le_refl 1
  | cons s ts =>
    rw [place]
    split
    · exact Nat.le_add_left 1 _
    · exact le_refl 1

theorem place_le (h : (t :: ts).Pairwise (fun later earlier => earlier ≤ later)) :
    (place w t ts).1 ≤ t := by
  induction ts generalizing t with
  | nil => exact le_refl t
  | cons s ts ih =>
    obtain ⟨hle, hrest⟩ := List.pairwise_cons.1 h
    rw [place]
    split
    · exact (ih hrest).trans (hle s List.mem_cons_self)
    · exact le_refl t

theorem early_skip (h : ¬ (a ≤ t ∧ t < a + w)) :
    early w limit a (t :: ts) = early w limit a ts := by
  rw [early, if_neg]
  exact fun hin => h ⟨hin.1, hin.2.1⟩

theorem early_le_succ (w : Rat) (limit : Int) (a t : Rat) (ts : List Rat) :
    early w limit a (t :: ts) ≤ early w limit a ts + 1 := by
  rw [early]
  split
  · exact le_refl _
  · exact Nat.le_succ _

theorem early_full (h : limit ≤ ((place w t ts).2 : Int)) :
    early w limit a (t :: ts) = early w limit a ts := by
  rw [early, if_neg]
  exact fun hin => absurd hin.2.2 (not_lt.2 h)

/-- How many are early, by where the last window begins. -/
structure Counted (w : Rat) (limit : Int) (a t : Rat) (ts : List Rat) : Prop where
  before : t < a → early w limit a (t :: ts) = 0
  running : (place w t ts).1 < a →
    (early w limit a (t :: ts) : Int) ≤ min ((place w t ts).2 : Int) (limit - 1)
  inside : (place w t ts).1 < a + w →
    (early w limit a (t :: ts) : Int) ≤ limit - 1 + min ((place w t ts).2 : Int) (limit - 1)
  total : (early w limit a (t :: ts) : Int) ≤ 2 * (limit - 1)

theorem Counted.stay (h : Counted w limit a s ts)
    (hsorted : (t :: s :: ts).Pairwise (fun later earlier => earlier ≤ later))
    (hstay : t ≤ (place w s ts).1 + w) : Counted w limit a t (s :: ts) := by
  obtain ⟨hle, hrest⟩ := List.pairwise_cons.1 hsorted
  have hst := hle s List.mem_cons_self
  have hstart : (place w s ts).1 ≤ s := place_le hrest
  have hplace := place_stay hstay
  have hstep : (early w limit a (t :: s :: ts) : Int) ≤ early w limit a (s :: ts) + 1 := by
    exact_mod_cast early_le_succ w limit a t (s :: ts)
  have hfull : limit ≤ (place w s ts).2 + 1 →
      early w limit a (t :: s :: ts) = early w limit a (s :: ts) := by
    intro hl
    apply early_full
    rw [hplace]
    push_cast
    exact hl
  constructor
  · intro hlt
    rw [early_skip (by rintro ⟨hat, -⟩; linarith)]
    exact h.before (by linarith)
  · rw [hplace]
    intro hlt
    have hold := h.running hlt
    push_cast
    by_cases hl : limit ≤ (place w s ts).2 + 1
    · rw [hfull hl]
      omega
    · omega
  · rw [hplace]
    intro hlt
    have hold := h.inside hlt
    push_cast
    by_cases hl : limit ≤ (place w s ts).2 + 1
    · rw [hfull hl]
      omega
    · omega
  · by_cases hlt : (place w s ts).1 < a + w
    · have hold := h.inside hlt
      by_cases hl : limit ≤ (place w s ts).2 + 1
      · rw [hfull hl]
        omega
      · omega
    · rw [early_skip (by rintro ⟨-, hat⟩; linarith)]
      exact h.total

theorem Counted.begin (h : Counted w limit a s ts) (hlimit : 2 ≤ limit)
    (hsorted : (t :: s :: ts).Pairwise (fun later earlier => earlier ≤ later))
    (hbegin : ¬ t ≤ (place w s ts).1 + w) : Counted w limit a t (s :: ts) := by
  obtain ⟨hle, -⟩ := List.pairwise_cons.1 hsorted
  have hst := hle s List.mem_cons_self
  have hplace := place_begin hbegin
  have hstep : (early w limit a (t :: s :: ts) : Int) ≤ early w limit a (s :: ts) + 1 := by
    exact_mod_cast early_le_succ w limit a t (s :: ts)
  have hbefore : t < a → early w limit a (t :: s :: ts) = 0 := by
    intro hlt
    rw [early_skip (by rintro ⟨hat, -⟩; linarith)]
    exact h.before (by linarith)
  have hrunning : t < a + w → (early w limit a (s :: ts) : Int) ≤ limit - 1 := by
    intro hlt
    have hold := h.running (by linarith)
    omega
  constructor
  · exact hbefore
  · rw [hplace]
    intro hlt
    rw [hbefore hlt]
    push_cast
    omega
  · rw [hplace]
    intro hlt
    have hold := hrunning hlt
    push_cast
    omega
  · by_cases hlt : t < a + w
    · have hold := hrunning hlt
      omega
    · rw [early_skip (fun hin => hlt hin.2)]
      exact h.total

theorem counted (hlimit : 2 ≤ limit)
    (hsorted : (t :: ts).Pairwise (fun later earlier => earlier ≤ later)) :
    Counted w limit a t ts := by
  induction ts generalizing t with
  | nil =>
    have hone : (early w limit a [t] : Int) ≤ 1 := by
      exact_mod_cast early_le_succ w limit a t []
    constructor
    · intro hlt
      exact early_skip (by rintro ⟨hat, -⟩; linarith)
    · intro _
      change _ ≤ min ((1 : Nat) : Int) (limit - 1)
      push_cast
      omega
    · intro _
      change _ ≤ limit - 1 + min ((1 : Nat) : Int) (limit - 1)
      push_cast
      omega
    · omega
  | cons s ts ih =>
    have hold := ih (List.pairwise_cons.1 hsorted).2
    by_cases hstay : t ≤ (place w s ts).1 + w
    · exact hold.stay hsorted hstay
    · exact hold.begin hlimit hsorted hstay

theorem early_le (hlimit : 2 ≤ limit)
    (hsorted : ts.Pairwise (fun later earlier => earlier ≤ later)) :
    (early w limit a ts : Int) ≤ 2 * (limit - 1) := by
  cases ts with
  | nil =>
    rw [early]
    push_cast
    omega
  | cons t ts => exact (counted hlimit hsorted).total

end FixedWindow
