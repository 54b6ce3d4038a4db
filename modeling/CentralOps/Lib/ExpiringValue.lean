import Mathlib.Algebra.Order.Ring.Rat

set_option autoImplicit true

structure ExpiringValue (ν : Type) where
  value : ν
  deadline : Rat

namespace ExpiringValue

variable {ν : Type}

/-- What is read of a key. -/
def read (now : Rat) (k : Option (ExpiringValue ν)) : Option ν :=
  (k.filter (fun l => now ≤ l.deadline)).map ExpiringValue.value

/-- `SET EX`. -/
def setEx (now ttl : Rat) (v : ν) : Option (ExpiringValue ν) := some ⟨v, now + ttl⟩

/-- The key is there until an instant. -/
def Lasts (k : Option (ExpiringValue ν)) (t : Rat) : Prop := ∃ l, k = some l ∧ t ≤ l.deadline

variable {k : Option (ExpiringValue ν)}

theorem read_eq_some_iff {v : ν} :
    read now k = some v ↔ ∃ l, k = some l ∧ now ≤ l.deadline ∧ l.value = v := by
  simp only [read, Option.map_eq_some_iff, Option.filter_eq_some_iff, decide_eq_true_eq, and_assoc]

theorem isSome_read_iff : (read now k).isSome = true ↔ Lasts k now := by
  rw [read, Option.isSome_map]
  cases k with
  | none =>
    constructor
    · intro h
      cases h
    · rintro ⟨l, hl, -⟩
      cases hl
  | some l =>
    rw [Option.filter_some]
    constructor
    · intro h
      split at h
      · next hle => exact ⟨l, rfl, of_decide_eq_true hle⟩
      · cases h
    · rintro ⟨l', hl', hle⟩
      cases hl'
      rw [if_pos (decide_eq_true hle)]
      rfl

theorem lasts_setEx (now ttl : Rat) (v : ν) : Lasts (setEx now ttl v) (now + ttl) :=
  ⟨_, rfl, le_refl _⟩

theorem Lasts.mono (h : Lasts k t) (hle : s ≤ t) : Lasts k s := by
  obtain ⟨l, hl, ht⟩ := h
  exact ⟨l, hl, hle.trans ht⟩

theorem Lasts.lt_of_gone (h : Lasts k t) (hgone : (read now k).isNone = true) : t < now := by
  by_contra hle
  have hread := isSome_read_iff.2 (h.mono (not_lt.1 hle))
  rw [Option.isNone_iff_eq_none] at hgone
  rw [hgone] at hread
  cases hread

end ExpiringValue
