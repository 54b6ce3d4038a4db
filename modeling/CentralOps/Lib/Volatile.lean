import Mathlib.Data.Rat.Floor
import Mathlib.Tactic.Linarith

set_option autoImplicit true

@[ext] structure Volatile (ν : Type) where
  value : ν
  expiry : Option Rat

namespace Volatile

variable {ν : Type}

/-- What a command finds of a key. -/
def read (now : Rat) (k : Option (Volatile ν)) : Option (Volatile ν) :=
  k.filter (fun v => v.expiry.all (fun t => decide (now ≤ t)))

/-- `TTL`: the seconds left, rounded half up; -1 without an expiry and -2 without a key. -/
def ttl (now : Rat) (k : Option (Volatile ν)) : Int :=
  match read now k with
  | none => -2
  | some ⟨_, none⟩ => -1
  | some ⟨_, some t⟩ => ⌊t - now + 1 / 2⌋

/-- `EXPIRE`: no seconds at all delete the key. -/
def expire (now : Rat) (seconds : Int) (k : Option (Volatile ν)) : Option (Volatile ν) :=
  if seconds ≤ 0 then none
  else (read now k).map (fun v => { v with expiry := some (now + seconds) })

/-- The key is there for ever. -/
def Bare (k : Option (Volatile ν)) : Prop := ∃ v, k = some ⟨v, none⟩

/-- The key is gone after an instant. -/
def Until (k : Option (Volatile ν)) (t : Rat) : Prop :=
  ∀ v, k = some v → ∃ e, v.expiry = some e ∧ e ≤ t

variable {k : Option (Volatile ν)} {now t : Rat}

theorem read_some (h : read now k = some v) : k = some v := by
  cases k with
  | none => cases h
  | some v' =>
    rw [read, Option.filter_some] at h
    split at h
    · exact h
    · cases h

theorem not_bare_none : ¬ Bare (none : Option (Volatile ν)) := by
  rintro ⟨v, h⟩
  cases h

theorem not_bare_expire {seconds : Int} : ¬ Bare (expire now seconds k) := by
  rintro ⟨v, h⟩
  rw [expire] at h
  split at h
  · cases h
  · obtain ⟨v', -, hv'⟩ := Option.map_eq_some_iff.1 h
    cases hv'

theorem until_none (t : Rat) : Until (none : Option (Volatile ν)) t := fun _ h => nomatch h

theorem until_some (v : ν) (t : Rat) : Until (some ⟨v, some t⟩) t := by
  intro v' hv
  cases hv
  exact ⟨t, rfl, le_refl t⟩

theorem Until.not_bare (h : Until k t) : ¬ Bare k := by
  rintro ⟨v, rfl⟩
  obtain ⟨e, he, -⟩ := h _ rfl
  cases he

theorem until_expire {seconds : Int} : Until (expire now seconds k) (now + seconds) := by
  intro v hv
  rw [expire] at hv
  split at hv
  · cases hv
  · obtain ⟨v', -, rfl⟩ := Option.map_eq_some_iff.1 hv
    exact ⟨_, rfl, le_refl _⟩

theorem Until.read_eq_none (h : Until k t) (hlt : t < now) : read now k = none := by
  cases k with
  | none => rfl
  | some v =>
    obtain ⟨e, he, hle⟩ := h v rfl
    rw [read, Option.filter_some, if_neg]
    rw [he, Option.all_some, decide_eq_true_eq, not_le]
    exact hle.trans_lt hlt

/-- `TTL` answers some seconds where at least half a second is left. -/
theorem ttl_pos_iff : 0 < ttl now k ↔ ∃ v e, k = some ⟨v, some e⟩ ∧ now + 1 / 2 ≤ e := by
  rw [ttl]
  cases hread : Volatile.read now k with
  | none =>
    constructor
    · intro h
      cases h
    · rintro ⟨v, e, rfl, hle⟩
      rw [Volatile.read, Option.filter_some, Option.all_some, if_pos] at hread
      · cases hread
      · exact decide_eq_true (by linarith)
  | some found =>
    obtain ⟨v, expiry⟩ := found
    obtain rfl := read_some hread
    cases expiry with
    | none =>
      constructor
      · intro h
        cases h
      · rintro ⟨v', e, hv, -⟩
        cases hv
    | some e =>
      have hfloor : 0 < ⌊e - now + 1 / 2⌋ ↔ now + 1 / 2 ≤ e := by
        rw [← Int.add_one_le_iff, zero_add, Int.le_floor, Int.cast_one]
        constructor
        · intro h
          linarith
        · intro h
          linarith
      constructor
      · exact fun h => ⟨v, e, rfl, hfloor.1 h⟩
      · rintro ⟨v', e', hv, hle⟩
        cases hv
        exact hfloor.2 hle

theorem ttl_pos_mono (h : 0 < ttl t k) (hle : now ≤ t) : 0 < ttl now k := by
  obtain ⟨v, e, hk, he⟩ := ttl_pos_iff.1 h
  exact ttl_pos_iff.2 ⟨v, e, hk, by linarith⟩

end Volatile
