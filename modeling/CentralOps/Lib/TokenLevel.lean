import Mathlib.Algebra.Order.Field.Basic
import Mathlib.Tactic.Linarith
import Mathlib.Tactic.Ring

namespace TokenLevel
set_option autoImplicit true

variable {K : Type} [Field K] [LinearOrder K]

/-- The size of a bucket and how fast it fills. -/
structure Meter (K : Type) [Field K] [LinearOrder K] where
  capacity : K
  rate : K
  capacity_nonneg : 0 ≤ capacity
  rate_nonneg : 0 ≤ rate

/-- The tokens of a bucket at the time they were last counted. -/
structure Level (K : Type) where
  tokens : K
  since : K

inductive Use where
  | idle | refill | draw
  deriving DecidableEq

namespace Meter

/-- The tokens that a bucket has at a time. -/
def level (p : Meter K) (s : Level K) (t : K) : K :=
  min p.capacity (s.tokens + max (t - s.since) 0 * p.rate)

def next (p : Meter K) (s : Level K) (t : K) : Use → Level K
  | .idle => s
  | .refill => ⟨p.level s t, t⟩
  | .draw => ⟨p.level s t - 1, t⟩

def Within (p : Meter K) (s : Level K) : Prop := 0 ≤ s.tokens ∧ s.tokens ≤ p.capacity

def Follows (p : Meter K) : K → Level K → List (K × Use) → Prop
  | _, _, [] => True
  | last, s, (t, u) :: us =>
    last ≤ t ∧ (u = .draw → 1 ≤ p.level s t) ∧ p.Follows t (p.next s t u) us

def draws (a b : K) (us : List (K × Use)) : Nat :=
  us.countP fun e => e.2 = .draw ∧ a ≤ e.1 ∧ e.1 ≤ b

variable {p : Meter K} {s : Level K}

theorem level_le_capacity (p : Meter K) (s : Level K) (t : K) : p.level s t ≤ p.capacity :=
  min_le_left _ _

theorem next_since_le {u : Use} (hs : s.since ≤ last) (ht : last ≤ t) :
    (p.next s t u).since ≤ t := by
  cases u with
  | idle => exact hs.trans ht
  | refill => exact le_rfl
  | draw => exact le_rfl

theorem Follows.earlier {us : List (K × Use)} (h : p.Follows last s us) (hle : first ≤ last) :
    p.Follows first s us := by
  cases us with
  | nil => trivial
  | cons e us => exact ⟨hle.trans h.1, h.2⟩

theorem draws_eq_zero {us : List (K × Use)} (h : p.Follows last s us) (hb : b < last) :
    draws a b us = 0 := by
  induction us generalizing last s with
  | nil => rfl
  | cons e us ih =>
    obtain ⟨t, u⟩ := e
    obtain ⟨hle, _, hrest⟩ := h
    have hlate := hb.trans_le hle
    have hrest := ih hrest hlate
    rw [draws, List.countP_cons_of_neg (by simp [hlate])]
    exact hrest

variable [IsStrictOrderedRing K]

theorem level_nonneg (hs : p.Within s) (t : K) : 0 ≤ p.level s t := by
  apply le_min p.capacity_nonneg
  have h := mul_nonneg (le_max_right (t - s.since) 0) p.rate_nonneg
  linarith [hs.1]

theorem within_next (hs : p.Within s) {u : Use} (hdraw : u = .draw → 1 ≤ p.level s t) :
    p.Within (p.next s t u) := by
  cases u with
  | idle => exact hs
  | refill => exact ⟨level_nonneg hs t, level_le_capacity p s t⟩
  | draw =>
    have hone := hdraw rfl
    have hcap := level_le_capacity p s t
    exact ⟨sub_nonneg.2 hone, by change p.level s t - 1 ≤ p.capacity; linarith⟩

theorem elapsed_eq {t u : K} (h : u ≤ t) : max (t - u) 0 = t - u := max_eq_left (sub_nonneg.2 h)

theorem level_le_add (p : Meter K) (s : Level K) {t t' : K} (hs : s.since ≤ t) (ht : t ≤ t') :
    p.level s t' ≤ p.level s t + p.rate * (t' - t) := by
  have hgain := mul_nonneg p.rate_nonneg (sub_nonneg.2 ht)
  rw [level, level, elapsed_eq hs, elapsed_eq (hs.trans ht)]
  rcases le_total p.capacity (s.tokens + (t - s.since) * p.rate) with h | h
  · rw [min_eq_left h]
    exact (min_le_left _ _).trans (by linarith)
  · rw [min_eq_right h]
    exact (min_le_right _ _).trans (by linarith)

theorem level_refill (p : Meter K) (s : Level K) {m t : K} (hs : s.since ≤ m) (ht : m ≤ t) :
    p.level (p.next s m .refill) t = p.level s t := by
  have hgain := mul_nonneg (sub_nonneg.2 ht) p.rate_nonneg
  rw [next, level, level, level, elapsed_eq hs, elapsed_eq ht, elapsed_eq (hs.trans ht)]
  have hsplit : s.tokens + (t - s.since) * p.rate =
      s.tokens + (m - s.since) * p.rate + (t - m) * p.rate := by ring
  rw [hsplit]
  rcases le_total p.capacity (s.tokens + (m - s.since) * p.rate) with h | h
  · rw [min_eq_left h, min_eq_left, min_eq_left]
    · linarith
    · linarith
  · rw [min_eq_right h]

/-- What is drawn from some time on was there or came in since. -/
theorem draws_le_level {us : List (K × Use)} (h : p.Follows last s us) (hs : p.Within s)
    (hsince : s.since ≤ last) (hb : last ≤ b) :
    (draws a b us : K) ≤ p.level s last + p.rate * (b - last) := by
  induction us generalizing last s with
  | nil =>
    have hlevel := level_nonneg hs last
    have hgain := mul_nonneg p.rate_nonneg (sub_nonneg.2 hb)
    rw [draws, List.countP_nil, Nat.cast_zero]
    linarith
  | cons e us ih =>
    obtain ⟨t, u⟩ := e
    obtain ⟨hle, hdraw, hrest⟩ := h
    by_cases htb : t ≤ b
    · have htail := ih hrest (within_next hs hdraw) (next_since_le hsince hle) htb
      have hgain := level_le_add p s hsince hle
      have hrate : p.rate * (b - last) = p.rate * (t - last) + p.rate * (b - t) := by ring
      have hthere : p.level (p.next s t u) t ≤ p.level s t - if u = .draw then 1 else 0 := by
        cases u with
        | idle => simp [next]
        | refill => simp [level_refill p s (hsince.trans hle) le_rfl]
        | draw =>
          rw [if_pos rfl, level, next, elapsed_eq le_rfl, sub_self, zero_mul, add_zero]
          exact min_le_right _ _
      have hcount : (draws a b ((t, u) :: us) : K) ≤
          draws a b us + if u = .draw then 1 else 0 := by
        rw [draws, draws, List.countP_cons]
        by_cases hu : u = .draw
        · subst hu
          by_cases ha : a ≤ t <;> simp [ha, htb]
        · simp [hu]
      linarith
    · have hnone := draws_eq_zero (a := a) (b := b) hrest (lt_of_not_ge htb)
      have hlevel := level_nonneg hs last
      have hgain := mul_nonneg p.rate_nonneg (sub_nonneg.2 hb)
      rw [draws, List.countP_cons_of_neg (by simp [htb]), ← draws, hnone, Nat.cast_zero]
      linarith

/-- In an interval of any length no more is drawn than a full bucket and what comes in. -/
theorem draws_le {us : List (K × Use)} (h : p.Follows last s us) (hs : p.Within s)
    (hsince : s.since ≤ last) (hab : a ≤ b) :
    (draws a b us : K) ≤ p.capacity + p.rate * (b - a) := by
  have hall := mul_nonneg p.rate_nonneg (sub_nonneg.2 hab)
  induction us generalizing last s with
  | nil =>
    rw [draws, List.countP_nil, Nat.cast_zero]
    linarith [p.capacity_nonneg]
  | cons e us ih =>
    obtain ⟨t, u⟩ := e
    obtain ⟨hle, hdraw, hrest⟩ := h
    by_cases hta : t < a
    · rw [draws, List.countP_cons_of_neg (by simp [hta])]
      exact ih hrest (within_next hs hdraw) (next_since_le hsince hle)
    · have hstart : max a last ≤ t := max_le (le_of_not_gt hta) hle
      have hfollows : p.Follows (max a last) s ((t, u) :: us) := ⟨hstart, hdraw, hrest⟩
      rcases le_or_gt (max a last) b with hb | hb
      · have hbound := draws_le_level (a := a) hfollows hs (hsince.trans (le_max_right a last)) hb
        have hcap := level_le_capacity p s (max a last)
        have hshort := mul_le_mul_of_nonneg_left (sub_le_sub_left (le_max_left a last) b)
          p.rate_nonneg
        linarith
      · rw [draws_eq_zero hfollows hb, Nat.cast_zero]
        linarith [p.capacity_nonneg]

theorem Follows.within {us : List (K × Use)} (h : p.Follows last s us) (hs : p.Within s) :
    p.Within (us.foldl (fun s e => p.next s e.1 e.2) s) := by
  induction us generalizing last s with
  | nil => exact hs
  | cons e us ih =>
    obtain ⟨t, u⟩ := e
    obtain ⟨_, hdraw, hrest⟩ := h
    exact ih hrest (within_next hs hdraw)

end Meter
end TokenLevel
