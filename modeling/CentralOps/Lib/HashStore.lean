import Mathlib.Logic.Function.Basic
import Mathlib.Data.Rat.Defs
import Mathlib.Algebra.Order.Ring.Rat
import CentralOps.Lib.Dict

set_option autoImplicit true

/-- A hash of a key-value server, and the last instant at which it can be read. -/
structure ExpiringHash (φ ν : Type) where
  fields : Dict φ ν
  deadline : Option Rat

abbrev HashStore (κ φ ν : Type) := κ → Option (ExpiringHash φ ν)

namespace HashStore

variable {κ φ ν : Type}

/-- The hash, unless it has expired. -/
def live (s : HashStore κ φ ν) (now : Rat) (k : κ) : Option (ExpiringHash φ ν) :=
  (s k).filter (fun h => h.deadline.all (fun d => decide (now ≤ d)))

def hgetall (s : HashStore κ φ ν) (now : Rat) (k : κ) : Dict φ ν :=
  match s.live now k with
  | some h => h.fields
  | none => .empty

theorem live_congr {s s' : HashStore κ φ ν} (h : s' j = s j) : s'.live now j = s.live now j := by
  rw [live, live, h]

theorem hgetall_congr {s s' : HashStore κ φ ν} (h : s' j = s j) :
    s'.hgetall now j = s.hgetall now j := by
  rw [hgetall, hgetall, live_congr h]

theorem live_eq_some {s : HashStore κ φ ν} (h : s.live now k = some x) : s k = some x :=
  (Option.filter_eq_some_iff.1 h).1

variable [DecidableEq κ]

/-- `HSET`: a hash that is not there is made, without an expiry. -/
def hset [DecidableEq φ] (s : HashStore κ φ ν) (now : Rat) (k : κ) (fields : List (φ × ν)) :
    HashStore κ φ ν :=
  if fields.isEmpty then s
  else Function.update s k (some
    { fields := (s.hgetall now k).update fields
      deadline := (s.live now k).bind (fun h => h.deadline) })

def expire (s : HashStore κ φ ν) (now : Rat) (k : κ) (ttl : Rat) : HashStore κ φ ν :=
  match s.live now k with
  | some h => Function.update s k (some { h with deadline := some (now + ttl) })
  | none => s

/-- `HDEL`: a hash without fields is not there. -/
def hdel [DecidableEq φ] (s : HashStore κ φ ν) (now : Rat) (k : κ) (fields : List φ) :
    HashStore κ φ ν :=
  match s.live now k with
  | some h =>
    let rest := h.fields.filterKeys (fun f => decide (f ∉ fields))
    Function.update s k (if rest.isEmpty then none else some { h with fields := rest })
  | none => s

def del (s : HashStore κ φ ν) (k : κ) : HashStore κ φ ν := Function.update s k none

variable {s : HashStore κ φ ν} {now : Rat} {k j : κ}

theorem hset_ne [DecidableEq φ] (h : j ≠ k) (fields : List (φ × ν)) :
    s.hset now k fields j = s j := by
  rw [hset]
  split
  · rfl
  · exact Function.update_of_ne h ..

theorem expire_ne (h : j ≠ k) (ttl : Rat) : s.expire now k ttl j = s j := by
  rw [expire]
  cases s.live now k with
  | none => rfl
  | some x => exact Function.update_of_ne h ..

theorem hdel_ne [DecidableEq φ] (h : j ≠ k) (fields : List φ) : s.hdel now k fields j = s j := by
  rw [hdel]
  cases s.live now k with
  | none => rfl
  | some x => exact Function.update_of_ne h ..

theorem del_self (s : HashStore κ φ ν) (k : κ) : s.del k k = none := Function.update_self ..

theorem del_ne (h : j ≠ k) : s.del k j = s j := Function.update_of_ne h ..

theorem hgetall_hset_self [DecidableEq φ] (s : HashStore κ φ ν) (now : Rat) (k : κ) (fields : List (φ × ν)) :
    (s.hset now k fields).hgetall now k =
      (s.hgetall now k).update fields := by
  rw [hset]
  by_cases hf : fields.isEmpty = true
  · rw [if_pos hf, List.isEmpty_iff.1 hf]
    rfl
  · have hlive : ((s.live now k).bind (fun h => h.deadline)).all (fun d => decide (now ≤ d)) =
        true := by
      cases h : s.live now k with
      | none => rfl
      | some x => exact (Option.filter_eq_some_iff.1 h).2
    rw [if_neg hf, hgetall, live, Function.update_self, Option.filter_some, if_pos hlive]

theorem hgetall_expire_self (s : HashStore κ φ ν) (now : Rat) (k : κ) (h : 0 ≤ ttl) :
    (s.expire now k ttl).hgetall now k = s.hgetall now k := by
  rw [expire]
  cases hl : s.live now k with
  | none => rfl
  | some x =>
    have hle : decide (now ≤ now + ttl) = true := decide_eq_true (le_add_of_nonneg_right h)
    simp only [hgetall, live, Function.update_self, Option.filter_some, Option.all_some, hle,
      if_true]
    rw [← live, hl]

theorem get?_hgetall_hdel_self [DecidableEq φ] (s : HashStore κ φ ν) (now : Rat) (k : κ)
    (fields : List φ) (f : φ) :
    ((s.hdel now k fields).hgetall now k).get? f =
      if f ∈ fields then none else (s.hgetall now k).get? f := by
  rw [hdel]
  cases hl : s.live now k with
  | none =>
    have hold : s.hgetall now k = .empty := by rw [hgetall, hl]
    simp only [hold, Dict.get?_empty, ite_self]
  | some x =>
    have hold : s.hgetall now k = x.fields := by rw [hgetall, hl]
    have hrest : (x.fields.filterKeys (fun f => decide (f ∉ fields))).get? f =
        if f ∈ fields then none else x.fields.get? f := by
      rw [Dict.get?_filterKeys]
      by_cases hf : f ∈ fields
      · simp only [hf, not_true_eq_false, decide_false, Bool.false_eq_true, if_false, if_true]
      · simp only [hf, not_false_eq_true, decide_true, if_true, if_false]
    rw [hold, ← hrest]
    simp only [hgetall, live, Function.update_self]
    cases he : (x.fields.filterKeys (fun f => decide (f ∉ fields))).isEmpty with
    | true => exact ((Dict.isEmpty_iff _).1 he f).symm
    | false =>
      have hlive := (Option.filter_eq_some_iff.1 hl).2
      rw [if_neg Bool.false_ne_true, Option.filter_some, if_pos hlive]

omit [DecidableEq κ] in
theorem hgetall_later (s : HashStore κ φ ν) (k : κ) {later : Rat} (h : now ≤ later) :
    s.hgetall later k = s.hgetall now k ∨ s.hgetall later k = .empty := by
  rw [hgetall]
  cases hl : s.live later k with
  | none => exact .inr rfl
  | some x =>
    obtain ⟨hs, hlive⟩ := Option.filter_eq_some_iff.1 hl
    have hnow : s.live now k = some x := by
      apply Option.filter_eq_some_iff.2
      apply And.intro hs
      cases hd : x.deadline with
      | none => rfl
      | some d =>
        rw [hd, Option.all_some, decide_eq_true_iff] at hlive
        exact decide_eq_true (h.trans hlive)
    rw [hgetall, hnow]
    exact .inl rfl

theorem hset_congr [DecidableEq φ] {s' : HashStore κ φ ν} (h : s' k = s k)
    (fields : List (φ × ν)) : s'.hset now k fields k = s.hset now k fields k := by
  rw [hset, hset]
  by_cases hf : fields.isEmpty = true
  · rw [if_pos hf, if_pos hf, h]
  · rw [if_neg hf, if_neg hf, Function.update_self, Function.update_self, hgetall_congr h,
      live_congr h]

theorem expire_congr {s' : HashStore κ φ ν} (h : s' k = s k) (ttl : Rat) :
    s'.expire now k ttl k = s.expire now k ttl k := by
  rw [expire, expire, live_congr h]
  cases s.live now k with
  | none => exact h
  | some x => simp only [Function.update_self]

omit [DecidableEq κ] in
theorem foldl_touch {α : Type} {f : HashStore κ φ ν → α → HashStore κ φ ν} {key : α → κ}
    (hne : ∀ s a j, j ≠ key a → f s a j = s j)
    (hself : ∀ s s' a, s' (key a) = s (key a) → f s' a (key a) = f s a (key a))
    {as : List α} (hnodup : (as.map key).Nodup) (s : HashStore κ φ ν) :
    (∀ a ∈ as, as.foldl f s (key a) = f s a (key a)) ∧
      ∀ j, j ∉ as.map key → as.foldl f s j = s j := by
  induction as generalizing s with
  | nil => exact ⟨fun a ha => absurd ha List.not_mem_nil, fun j _ => rfl⟩
  | cons a as ih =>
    rw [List.map_cons, List.nodup_cons] at hnodup
    obtain ⟨hin, hout⟩ := ih hnodup.2 (f s a)
    constructor
    · intro b hb
      obtain rfl | hb := List.mem_cons.1 hb
      · exact hout (key b) hnodup.1
      · have hk : key b ≠ key a := fun h => hnodup.1 (h ▸ List.mem_map_of_mem hb)
        exact (hin b hb).trans (hself s (f s a) b (hne s a (key b) hk))
    · intro j hj
      rw [List.map_cons, List.mem_cons, not_or] at hj
      exact (hout j hj.2).trans (hne s a j hj.1)

def Holds (P : κ → φ → ν → Prop) [DecidableEq φ] (s : HashStore κ φ ν) : Prop :=
  ∀ k h, s k = some h → ∀ f v, h.fields.get? f = some v → P k f v

section Holds
variable [DecidableEq φ] {P : κ → φ → ν → Prop}

omit [DecidableEq κ] in
theorem Holds.mono {Q : κ → φ → ν → Prop} (hs : Holds P s) (hPQ : ∀ k f v, P k f v → Q k f v) :
    Holds Q s :=
  fun k h hk f v hf => hPQ k f v (hs k h hk f v hf)

omit [DecidableEq κ] in
theorem Holds.hgetall (hs : Holds P s) (h : (s.hgetall now k).get? f = some v) : P k f v := by
  rw [HashStore.hgetall] at h
  cases hl : s.live now k with
  | none =>
    rw [hl] at h
    cases h
  | some x =>
    rw [hl] at h
    exact hs k x (live_eq_some hl) f v h

theorem Holds.update {o : Option (ExpiringHash φ ν)} (hs : Holds P s)
    (ho : ∀ h, o = some h → ∀ f v, h.fields.get? f = some v → P k f v) :
    Holds P (Function.update s k o) := by
  intro j h hj f v hf
  by_cases hjk : j = k
  · subst hjk
    rw [Function.update_self] at hj
    exact ho h hj f v hf
  · rw [Function.update_of_ne hjk] at hj
    exact hs j h hj f v hf

theorem Holds.hset {fields : List (φ × ν)} (hs : Holds P s) (now : Rat)
    (hnew : ∀ p ∈ fields, P k p.1 p.2) : Holds P (s.hset now k fields) := by
  rw [HashStore.hset]
  by_cases hf : fields.isEmpty = true
  · rw [if_pos hf]
    exact hs
  · rw [if_neg hf]
    apply hs.update
    intro h hh f v hget
    cases hh
    obtain hin | ⟨-, hold⟩ := Dict.get?_update hget
    · exact hnew (f, v) hin
    · exact hs.hgetall hold

theorem Holds.expire (hs : Holds P s) (now : Rat) (k : κ) (ttl : Rat) :
    Holds P (s.expire now k ttl) := by
  rw [HashStore.expire]
  cases hl : s.live now k with
  | none => exact hs
  | some x =>
    apply hs.update
    intro h hh
    cases hh
    exact hs k x (live_eq_some hl)

theorem Holds.del (hs : Holds P s) (k : κ) : Holds P (s.del k) :=
  hs.update (fun _ hh => nomatch hh)

end Holds

end HashStore
