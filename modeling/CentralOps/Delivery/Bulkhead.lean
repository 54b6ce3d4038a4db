import CentralOps.Lib.Semaphore
import CentralOps.Lib.System

namespace CentralOps
set_option autoImplicit true

structure DestinationSlot (τ : Type) where
  sem : Semaphore τ
  limit : Nat
  target : Nat
  pending : Nat
  deriving DecidableEq, Repr

def clampLimit (n : Int) : Nat := if n < 1 then 1 else n.toNat

namespace DestinationSlot

def init (limit : Nat) : DestinationSlot τ :=
  { sem := { value := limit }, limit := limit, target := limit, pending := 0 }

def retarget (slot : DestinationSlot τ) (newLimit : Int) : DestinationSlot τ :=
  let new := clampLimit newLimit
  let slot := { slot with target := new }
  if new = slot.limit then slot
  else if slot.pending = 0 then { slot with sem := { value := new }, limit := new }
  else if new > slot.limit then
    { slot with sem := Semaphore.release^[new - slot.limit] slot.sem, limit := new }
  else slot

/-- `__aenter__` up to its first suspension, and whether the task is inside. -/
def aenter (slot : DestinationSlot τ) (t : τ) : DestinationSlot τ × Bool :=
  let r := slot.sem.acquire t
  ({ slot with pending := slot.pending + 1, sem := r.1 }, r.2)

/-- `__aenter__` from the wake-up of its task on. -/
def aenterResume [DecidableEq τ] (slot : DestinationSlot τ) (t : τ) :
    Option (DestinationSlot τ × Bool) :=
  match slot.sem.resume t with
  | some (sem, true) => some ({ slot with sem := sem }, true)
  | some (sem, false) => some ({ slot with sem := sem, pending := slot.pending - 1 }, false)
  | none => none

def aexit (slot : DestinationSlot τ) : DestinationSlot τ :=
  let slot := { slot with pending := slot.pending - 1 }
  if slot.limit > slot.target then { slot with limit := slot.limit - 1 }
  else { slot with sem := slot.sem.release }

end DestinationSlot

/-- `existing` is the pool's entry for the destination: its slot and the loop it is bound to. -/
def getSemaphore (existing : Option (DestinationSlot τ × Nat)) (loop : Nat)
    (concurrency : Int) : DestinationSlot τ :=
  let c := clampLimit concurrency
  match existing with
  | some (slot, l) =>
    if l = loop then if slot.target ≠ c then slot.retarget c else slot
    else DestinationSlot.init c
  | none => DestinationSlot.init c

/-- One slot, the tasks inside its `async with`, and the largest limit asked for since the slot
was last idle. -/
structure Bulkhead (τ : Type) where
  slot : DestinationSlot τ
  inside : List τ
  peak : Nat
  deriving DecidableEq

inductive BulkheadAction (τ : Type) where
  | enter (t : τ)
  | cancel (t : τ)
  | resume (t : τ)
  | exit (t : τ)
  | retarget (newLimit : Int)
  | getSemaphore (concurrency : Int)

namespace Bulkhead

def start (concurrency : Int) : Bulkhead τ :=
  { slot := CentralOps.getSemaphore none 0 concurrency, inside := [],
    peak := clampLimit concurrency }

/-- Permits in the hands of a task, inside the block or woken up to enter it. -/
def holders (s : Bulkhead τ) : Nat := s.inside.length + s.slot.sem.grants

def free (s : Bulkhead τ) : Nat := s.slot.sem.value

def update (s : Bulkhead τ) (slot : DestinationSlot τ) (inside : List τ) : Bulkhead τ :=
  { slot := slot, inside := inside,
    peak := if slot.pending = 0 then slot.target else max s.peak slot.target }

variable [DecidableEq τ]

def act (s : Bulkhead τ) : BulkheadAction τ → Bulkhead τ
  | .enter t =>
    let r := s.slot.aenter t
    s.update r.1 (if r.2 then t :: s.inside else s.inside)
  | .cancel t => s.update { s.slot with sem := s.slot.sem.cancel t } s.inside
  | .resume t =>
    match s.slot.aenterResume t with
    | some (slot, entered) => s.update slot (if entered then t :: s.inside else s.inside)
    | none => s
  | .exit t => s.update s.slot.aexit (s.inside.erase t)
  | .retarget n => s.update (s.slot.retarget n) s.inside
  | .getSemaphore c => s.update (CentralOps.getSemaphore (some (s.slot, 0)) 0 c) s.inside

def Enabled (s : Bulkhead τ) : BulkheadAction τ → Prop
  | .enter t => t ∉ s.inside ∧ s.slot.sem.waiters.lookup t = none
  | .cancel t => s.slot.sem.waiters.lookup t ≠ none
  | .resume t => s.slot.sem.resume t ≠ none
  | .exit t => t ∈ s.inside
  | .retarget _ | .getSemaphore _ => True

/-- The action calls `retarget` on the slot. -/
def Retargets (s : Bulkhead τ) : BulkheadAction τ → Prop
  | .retarget _ => True
  | .getSemaphore c => s.slot.target ≠ clampLimit c
  | .enter _ | .cancel _ | .resume _ | .exit _ => False

/-- A limit below the one in force is set on an idle slot or with no permit free, and during a
reduction no permit comes back from a task cancelled after its wake-up. -/
def Absorbing (s : Bulkhead τ) : BulkheadAction τ → Prop
  | .retarget n => clampLimit n < s.slot.limit → s.slot.pending = 0 ∨ s.slot.sem.value = 0
  | .getSemaphore c => clampLimit c ≠ s.slot.target → clampLimit c < s.slot.limit →
      s.slot.pending = 0 ∨ s.slot.sem.value = 0
  | .resume t => s.slot.sem.waiters.lookup t = some .wokenCancelled →
      s.slot.limit = s.slot.target ∨ ∃ w ∈ s.slot.sem.waiters, w.2 = .pending
  | .enter _ | .cancel _ | .exit _ => True

end Bulkhead

def bulkhead (τ : Type) [DecidableEq τ] : System (Bulkhead τ) (BulkheadAction τ) where
  enabled := Bulkhead.Enabled
  next := Bulkhead.act

/-- Every permit is in the semaphore or in a task's hands, and every task is counted. -/
structure DestinationSlot.Balanced (slot : DestinationSlot τ) (inside : Nat) : Prop where
  permits : inside + slot.sem.permits = slot.limit
  pending : slot.pending = inside + slot.sem.waiters.length
  target_le : slot.target ≤ slot.limit
  target_pos : 0 < slot.target

def DestinationSlot.Tight (slot : DestinationSlot τ) : Prop :=
  slot.sem.value = 0 ∨ slot.limit = slot.target

theorem clampLimit_pos (n : Int) : 0 < clampLimit n := by
  unfold clampLimit
  split <;> omega

@[simp] theorem clampLimit_cast (n : Nat) (h : 0 < n) : clampLimit (n : Int) = n := by
  unfold clampLimit
  split <;> omega

namespace DestinationSlot

theorem Balanced.init (h : 0 < n) : (init n : DestinationSlot τ).Balanced 0 where
  permits := by simp [DestinationSlot.init, Semaphore.permits, Semaphore.grants]
  pending := rfl
  target_le := le_rfl
  target_pos := h

/-- The cases of `retarget`: nothing but the target, a fresh semaphore, more permits. -/
theorem retarget_cases (slot : DestinationSlot τ) (n : Int) :
    (slot.retarget n = { slot with target := clampLimit n } ∧
      (clampLimit n = slot.limit ∨ slot.pending ≠ 0 ∧ clampLimit n < slot.limit)) ∨
    (slot.retarget n = ⟨⟨clampLimit n, []⟩, clampLimit n, clampLimit n, slot.pending⟩ ∧
      slot.pending = 0) ∨
    (slot.retarget n = ⟨Semaphore.release^[clampLimit n - slot.limit] slot.sem, clampLimit n,
        clampLimit n, slot.pending⟩ ∧
      slot.limit < clampLimit n) := by
  simp only [retarget]
  by_cases he : clampLimit n = slot.limit
  · exact .inl ⟨if_pos he, .inl he⟩
  by_cases hp : slot.pending = 0
  · exact .inr (.inl ⟨by rw [if_neg he, if_pos hp], hp⟩)
  by_cases hg : slot.limit < clampLimit n
  · exact .inr (.inr ⟨by rw [if_neg he, if_neg hp, if_pos hg], hg⟩)
  · exact .inl ⟨by rw [if_neg he, if_neg hp, if_neg hg], .inr ⟨hp, by omega⟩⟩

theorem Balanced.retarget {slot : DestinationSlot τ} (h : slot.Balanced k) (n : Int) :
    (slot.retarget n).Balanced k := by
  have hpos := clampLimit_pos n
  rcases retarget_cases slot n with ⟨he, hc⟩ | ⟨he, hp⟩ | ⟨he, hg⟩
  · rw [he]
    exact ⟨h.permits, h.pending, by simp only; omega, hpos⟩
  · have hk : k = 0 := by have := h.pending; omega
    have hw : slot.pending = 0 := hp
    rw [he]
    exact ⟨by simp [hk, Semaphore.permits, Semaphore.grants], by simp [hk, hw], le_rfl, hpos⟩
  · have hr := Semaphore.permits_release_iterate (clampLimit n - slot.limit) slot.sem
    have hperm := h.permits
    rw [he]
    exact ⟨by simp only [hr.1]; omega, by simp only [hr.2, h.pending], le_rfl, hpos⟩

theorem Balanced.getSemaphore {slot : DestinationSlot τ} (h : slot.Balanced k) (c : Int) :
    (CentralOps.getSemaphore (some (slot, 0)) 0 c).Balanced k := by
  simp only [CentralOps.getSemaphore, if_true]
  split
  · exact h.retarget _
  · exact h

theorem Balanced.aexit {slot : DestinationSlot τ} (h : slot.Balanced (k + 1)) :
    slot.aexit.Balanced k := by
  have hperm := h.permits
  have hpend := h.pending
  have htl := h.target_le
  unfold DestinationSlot.aexit
  simp only
  split
  · exact ⟨by simp only; omega, by simp only; omega, by simp only; omega, h.target_pos⟩
  · exact ⟨by simp only [Semaphore.permits_release]; omega,
      by simp only [Semaphore.length_release]; omega, htl, h.target_pos⟩

theorem aenter_spec {slot slot' : DestinationSlot τ} (h : slot.aenter t = (slot', entered)) :
    slot'.limit = slot.limit ∧ slot'.target = slot.target ∧
      slot'.sem.value ≤ slot.sem.value ∧
      (slot.Balanced k → slot'.Balanced (k + entered.toNat)) := by
  obtain ⟨rfl, he⟩ := Prod.mk.inj h
  refine ⟨rfl, rfl, ?_⟩
  cases entered with
  | true =>
    have hacq : slot.sem.acquire t = ((slot.sem.acquire t).1, true) := Prod.ext rfl he
    obtain ⟨hperm, hw, hv⟩ := Semaphore.acquire_true hacq
    refine ⟨hv, fun hb => ⟨?_, ?_, hb.target_le, hb.target_pos⟩⟩
    · have := hb.permits
      simp only [Bool.toNat_true]
      omega
    · have := hb.pending
      simp only [Bool.toNat_true, hw]
      omega
  | false =>
    have hacq : slot.sem.acquire t = ((slot.sem.acquire t).1, false) := Prod.ext rfl he
    obtain ⟨hperm, hw, hv⟩ := Semaphore.acquire_false hacq
    refine ⟨le_of_eq hv, fun hb => ⟨?_, ?_, hb.target_le, hb.target_pos⟩⟩
    · rw [Bool.toNat_false, Nat.add_zero, hperm]
      exact hb.permits
    · have := hb.pending
      simp only [Bool.toNat_false, hw]
      omega

theorem aenterResume_spec [DecidableEq τ] {slot slot' : DestinationSlot τ}
    (h : slot.aenterResume t = some (slot', entered)) :
    slot'.limit = slot.limit ∧ slot'.target = slot.target ∧
      slot.sem.resume t = some (slot'.sem, entered) ∧
      (slot.Balanced k → slot'.Balanced (k + entered.toNat)) := by
  unfold aenterResume at h
  split at h
  next sem hr =>
    obtain ⟨rfl, rfl⟩ : _ ∧ true = entered := by simpa using h
    obtain ⟨hperm, hw⟩ := Semaphore.resume_spec hr
    refine ⟨rfl, rfl, hr, fun hb => ⟨?_, ?_, hb.target_le, hb.target_pos⟩⟩
    · have := hb.permits
      simp only at hperm ⊢
      omega
    · have := hb.pending
      simp only [Bool.toNat_true]
      omega
  next sem hr =>
    obtain ⟨rfl, rfl⟩ : _ ∧ false = entered := by simpa using h
    obtain ⟨hperm, hw⟩ := Semaphore.resume_spec hr
    refine ⟨rfl, rfl, hr, fun hb => ⟨?_, ?_, hb.target_le, hb.target_pos⟩⟩
    · have := hb.permits
      simp only at hperm ⊢
      omega
    · have := hb.pending
      simp only [Bool.toNat_false]
      omega
  next => simp at h

theorem aexit_limit (slot : DestinationSlot τ) :
    slot.aexit.target = slot.target ∧ slot.aexit.limit ≤ slot.limit ∧
      (slot.limit = slot.target → slot.aexit.limit = slot.limit) := by
  unfold aexit
  simp only
  split
  · exact ⟨rfl, Nat.sub_le _ _, fun h => by omega⟩
  · exact ⟨rfl, le_rfl, fun _ => rfl⟩

theorem retarget_limit (slot : DestinationSlot τ) (n : Int) :
    (slot.retarget n).limit = slot.limit ∨ (slot.retarget n).limit = (slot.retarget n).target := by
  rcases retarget_cases slot n with ⟨he, -⟩ | ⟨he, -⟩ | ⟨he, -⟩
  · exact .inl (by rw [he])
  · exact .inr (by rw [he])
  · exact .inr (by rw [he])

theorem Tight.of_le {slot slot' : DestinationSlot τ} (h : slot.Tight)
    (hl : slot'.limit = slot.limit) (ht : slot'.target = slot.target)
    (hv : slot'.sem.value ≤ slot.sem.value) : slot'.Tight := by
  rcases h with h0 | he
  · exact .inl (by omega)
  · exact .inr (by rw [hl, ht, he])

theorem Tight.aexit {slot : DestinationSlot τ} (h : slot.Tight) (hb : slot.Balanced k) :
    slot.aexit.Tight := by
  have htl := hb.target_le
  unfold DestinationSlot.aexit
  simp only
  split
  next hgt =>
    rcases h with h0 | he
    · exact .inl h0
    · omega
  next hle => exact .inr (by simp only; omega)

theorem Tight.retarget {slot : DestinationSlot τ} (n : Int)
    (ha : clampLimit n < slot.limit → slot.pending = 0 ∨ slot.sem.value = 0) :
    (slot.retarget n).Tight := by
  rcases retarget_cases slot n with ⟨he, heq | ⟨hp, hlt⟩⟩ | ⟨he, -⟩ | ⟨he, -⟩
  · rw [he]
    exact .inr heq.symm
  · rw [he]
    rcases ha hlt with h0 | hv
    · exact absurd h0 hp
    · exact .inl hv
  · rw [he]
    exact .inr rfl
  · rw [he]
    exact .inr rfl

theorem Balanced.limit_of_idle {slot : DestinationSlot τ} (h : slot.Balanced k)
    (ht : slot.Tight) (hp : slot.pending = 0) : slot.limit = slot.target := by
  rcases ht with h0 | he
  · have hperm := h.permits
    have hpend := h.pending
    have hw : slot.sem.waiters = [] := List.length_eq_zero_iff.1 (by omega)
    have hg : slot.sem.grants = 0 := by rw [Semaphore.grants, hw, List.countP_nil]
    have := h.target_le
    have := h.target_pos
    simp only [Semaphore.permits] at hperm
    omega
  · exact he

theorem getSemaphore_cases (slot : DestinationSlot τ) (c : Int) :
    (CentralOps.getSemaphore (some (slot, 0)) 0 c = slot.retarget (clampLimit c) ∧
      slot.target ≠ clampLimit c) ∨
    (CentralOps.getSemaphore (some (slot, 0)) 0 c = slot ∧ slot.target = clampLimit c) := by
  simp only [CentralOps.getSemaphore, if_true]
  by_cases h : slot.target = clampLimit c
  · exact .inr ⟨by simp [h], h⟩
  · exact .inl ⟨by simp [h], h⟩

end DestinationSlot

namespace Bulkhead

def Conserved (s : Bulkhead τ) : Prop := s.slot.Balanced s.inside.length

/-- No permit is free above the wanted limit, and the limit was asked for since the slot was
last idle. -/
def Contained (s : Bulkhead τ) : Prop :=
  s.Conserved ∧ s.slot.Tight ∧ s.slot.limit ≤ s.peak

theorem Conserved.start (c : Int) : (Bulkhead.start c : Bulkhead τ).Conserved :=
  DestinationSlot.Balanced.init (clampLimit_pos c)

theorem Conserved.holders_add_free {s : Bulkhead τ} (h : s.Conserved) :
    s.holders + s.free = s.slot.limit := by
  have := h.permits
  simp only [Semaphore.permits] at this
  simp only [holders, free]
  omega

theorem Contained.start (c : Int) : (Bulkhead.start c : Bulkhead τ).Contained :=
  ⟨Conserved.start c, .inr rfl, le_rfl⟩

theorem Contained.limit_eq {s : Bulkhead τ} (h : s.Contained)
    (hfit : s.holders ≤ s.slot.target) : s.slot.limit = s.slot.target := by
  obtain ⟨hb, hti, -⟩ := h
  rcases hti with h0 | he
  · have hsum := hb.holders_add_free
    have htl := hb.target_le
    simp only [free, h0] at hsum
    omega
  · exact he

variable [DecidableEq τ]

theorem act_update {s : Bulkhead τ} (he : s.Enabled a) :
    ∃ slot inside, s.act a = s.update slot inside ∧
      (s.slot.Balanced s.inside.length → slot.Balanced inside.length) ∧
      (slot.limit ≤ s.slot.limit ∨ slot.limit = slot.target) ∧
      (s.slot.Tight → s.slot.Balanced s.inside.length → s.Absorbing a → slot.Tight) ∧
      (¬ s.Retargets a → slot.target = s.slot.target ∧
        (s.slot.limit = s.slot.target → slot.limit = s.slot.limit)) := by
  cases a with
  | enter t =>
    obtain ⟨hl, ht, hv, hb⟩ := DestinationSlot.aenter_spec (k := s.inside.length)
      (Prod.mk.eta (p := s.slot.aenter t)).symm
    refine ⟨_, _, rfl, ?_, .inl (le_of_eq hl), fun hti _ _ => hti.of_le hl ht hv,
      fun _ => ⟨ht, fun _ => hl⟩⟩
    intro hbal
    cases h : (s.slot.aenter t).2 with
    | true => simpa [h] using hb hbal
    | false => simpa [h] using hb hbal
  | cancel t =>
    refine ⟨_, _, rfl, ?_, .inl le_rfl, fun hti _ _ => hti.of_le rfl rfl le_rfl,
      fun _ => ⟨rfl, fun _ => rfl⟩⟩
    intro hbal
    exact ⟨by rw [Semaphore.permits_cancel]; exact hbal.permits,
      by rw [Semaphore.length_cancel]; exact hbal.pending, hbal.target_le, hbal.target_pos⟩
  | resume t =>
    cases hr : s.slot.aenterResume t with
    | none =>
      exfalso
      apply he
      unfold DestinationSlot.aenterResume at hr
      split at hr <;> simp_all
    | some r =>
      obtain ⟨slot, entered⟩ := r
      obtain ⟨hl, ht, hres, hb⟩ := DestinationSlot.aenterResume_spec (k := s.inside.length) hr
      refine ⟨slot, if entered then t :: s.inside else s.inside, by simp only [act, hr], ?_,
        .inl (le_of_eq hl), ?_, fun _ => ⟨ht, fun _ => hl⟩⟩
      · intro hbal
        cases entered with
        | true => simpa using hb hbal
        | false => simpa using hb hbal
      · intro hti hbal ha
        by_cases heq : s.slot.limit = s.slot.target
        · exact .inr (by rw [hl, ht, heq])
        · have hle := Semaphore.resume_value_le hres fun hf => (ha hf).resolve_left heq
          exact hti.of_le hl ht hle
  | exit t =>
    obtain ⟨ht, hle, hfix⟩ := s.slot.aexit_limit
    have hlen : (s.inside.erase t).length + 1 = s.inside.length := by
      have hmem : t ∈ s.inside := he
      have := List.length_pos_of_mem hmem
      rw [List.length_erase_of_mem hmem]
      omega
    refine ⟨_, _, rfl, ?_, .inl hle, fun hti hbal _ => hti.aexit hbal, fun _ => ⟨ht, hfix⟩⟩
    intro hbal
    rw [← hlen] at hbal
    exact hbal.aexit
  | retarget n =>
    refine ⟨_, _, rfl, fun hbal => hbal.retarget n, ?_, fun _ _ ha => .retarget n ha,
      fun hn => absurd trivial hn⟩
    exact (s.slot.retarget_limit n).imp le_of_eq id
  | getSemaphore c =>
    refine ⟨_, _, rfl, fun hbal => hbal.getSemaphore c, ?_⟩
    rcases s.slot.getSemaphore_cases c with ⟨heq, hne⟩ | ⟨heq, -⟩
    · rw [heq]
      refine ⟨(s.slot.retarget_limit _).imp le_of_eq id, fun _ _ ha => .retarget _ ?_,
        fun hn => absurd hne hn⟩
      rw [clampLimit_cast _ (clampLimit_pos c)]
      exact ha hne.symm
    · rw [heq]
      exact ⟨.inl le_rfl, fun hti _ _ => hti, fun _ => ⟨rfl, fun _ => rfl⟩⟩

theorem Conserved.act {s : Bulkhead τ} (h : s.Conserved) (he : s.Enabled a) :
    (s.act a).Conserved := by
  obtain ⟨slot, inside, heq, hb, -⟩ := act_update he
  rw [heq]
  exact hb h

theorem Contained.act {s : Bulkhead τ} (h : s.Contained) (he : s.Enabled a)
    (ha : s.Absorbing a) : (s.act a).Contained := by
  obtain ⟨hb, hti, hpeak⟩ := h
  obtain ⟨slot, inside, heq, hbal, hlim, htight, -⟩ := act_update he
  have hb' := hbal hb
  have hti' := htight hti hb ha
  rw [heq]
  refine ⟨hb', hti', ?_⟩
  simp only [update]
  split
  next hp => exact le_of_eq (hb'.limit_of_idle hti' hp)
  next =>
    rcases hlim with hle | he
    · exact (hle.trans hpeak).trans (Nat.le_max_left _ _)
    · exact (le_of_eq he).trans (Nat.le_max_right _ _)

/-- While nobody calls `retarget`, a limit in force stays in force. -/
theorem Conserved.act_of_not_retargets {s : Bulkhead τ}
    (h : s.Conserved ∧ s.slot.limit = n ∧ s.slot.target = n) (he : s.Enabled a)
    (hn : ¬ s.Retargets a) :
    (s.act a).Conserved ∧ (s.act a).slot.limit = n ∧ (s.act a).slot.target = n := by
  obtain ⟨hb, hl, ht⟩ := h
  obtain ⟨slot, inside, heq, hbal, -, -, hframe⟩ := act_update he
  obtain ⟨ht', hl'⟩ := hframe hn
  rw [heq]
  exact ⟨hbal hb, by rw [← hl]; exact hl' (hl.trans ht.symm), ht'.trans ht⟩

end Bulkhead

variable [DecidableEq τ]

/-- Over the runs that `allowed` admits: permits are neither lost nor duplicated, the limit in
force was asked for since the slot was last idle, and once the tasks fit the wanted limit they
fit it until the next `retarget`. -/
def NeverOveradmits (allowed : Bulkhead τ → BulkheadAction τ → Prop) (c : Int) : Prop :=
  ∀ s, (bulkhead τ).Reaches allowed (Bulkhead.start c) s →
    s.holders + s.free = s.slot.limit ∧ s.slot.target ≤ s.slot.limit ∧ s.slot.limit ≤ s.peak ∧
    (s.holders ≤ s.slot.target →
      ∀ s', (bulkhead τ).Reaches (fun t a => ¬ t.Retargets a) s s' →
        s'.holders ≤ s.slot.target)

/-- Without any condition, permits are conserved and the limit in force is at least the wanted
one. -/
theorem bulkhead_conserves (c : Int) {s : Bulkhead τ}
    (h : (bulkhead τ).Reaches (fun _ _ => True) (Bulkhead.start c) s) :
    s.holders + s.free = s.slot.limit ∧ s.slot.target ≤ s.slot.limit := by
  have hb : s.Conserved :=
    h.invariant (fun _ _ hs he _ => hs.act he) (Bulkhead.Conserved.start c)
  exact ⟨hb.holders_add_free, hb.target_le⟩

theorem Bulkhead.Contained.stays_within {s s' : Bulkhead τ} (h : s.Contained)
    (hfit : s.holders ≤ s.slot.target)
    (hrun : (bulkhead τ).Reaches (fun t a => ¬ t.Retargets a) s s') :
    s'.holders ≤ s.slot.target := by
  have hend : s'.Conserved ∧ s'.slot.limit = s.slot.target ∧ s'.slot.target = s.slot.target :=
    hrun.invariant (I := fun t => t.Conserved ∧ t.slot.limit = s.slot.target ∧
        t.slot.target = s.slot.target)
      (fun _ _ hs he hn => Bulkhead.Conserved.act_of_not_retargets hs he hn)
      ⟨h.1, h.limit_eq hfit, rfl⟩
  have hsum := hend.1.holders_add_free
  have hlim := hend.2.1
  omega

theorem absorbing_never_overadmits (c : Int) :
    (∀ s, (bulkhead τ).Reaches (fun _ _ => True) (Bulkhead.start c) s →
      s.holders + s.free = s.slot.limit ∧ s.slot.target ≤ s.slot.limit) ∧
    NeverOveradmits (Bulkhead.Absorbing (τ := τ)) c := by
  refine ⟨fun s h => bulkhead_conserves c h, ?_⟩
  intro s h
  have hc : s.Contained :=
    h.invariant (fun _ _ hs he ha => hs.act he ha) (Bulkhead.Contained.start c)
  have hcons := bulkhead_conserves c (h.mono fun _ _ _ => trivial)
  exact ⟨hcons.1, hcons.2, hc.2.2, fun hfit s' hrun => hc.stays_within hfit hrun⟩

theorem absorbing_never_overadmits_full_slot :
    ∃ s : Bulkhead Nat, (bulkhead Nat).Reaches Bulkhead.Absorbing (Bulkhead.start 2) s ∧
      s.slot.limit = 1 ∧ s.slot.target = 1 ∧ s.holders = 1 ∧ s.slot.limit ≤ s.peak := by
  have h0 : (bulkhead Nat).Reaches Bulkhead.Absorbing (Bulkhead.start 2) (Bulkhead.start 2) :=
    .refl
  have h1 := h0.step (.enter 1) ⟨by decide, by decide⟩ trivial
  have h2 := h1.step (.enter 2) ⟨by decide, by decide⟩ trivial
  have h3 := h2.step (.getSemaphore 1) trivial (fun _ _ => .inr (by decide))
  have h4 := h3.step (.exit 1) (List.mem_of_elem_eq_true rfl) trivial
  exact ⟨_, h4, by decide, by decide, by decide,
    ((absorbing_never_overadmits 2).2 _ h4).2.2.1⟩

/-- Eight permits, one task inside, the limit lowered to two: the seven free permits stay, so
two more tasks get in, and the slot is idle with a limit of seven once the first has left. -/
theorem lowered_slot_overadmits :
    ¬ NeverOveradmits (fun (_ : Bulkhead Nat) _ => True) 8 ∧
    (∃ s s' : Bulkhead Nat,
      (bulkhead Nat).Reaches (fun _ _ => True) (Bulkhead.start 8) s ∧
      s.holders = 1 ∧ s.slot.target = 2 ∧
      (bulkhead Nat).Reaches (fun t a => ¬ t.Retargets a) s s' ∧ s'.holders = 3) ∧
    ∃ s : Bulkhead Nat, (bulkhead Nat).Reaches (fun _ _ => True) (Bulkhead.start 8) s ∧
      s.slot.pending = 0 ∧ s.peak = 2 ∧ s.slot.limit = 7 := by
  have h0 : (bulkhead Nat).Reaches (fun _ _ => True) (Bulkhead.start 8) (Bulkhead.start 8) :=
    .refl
  have h1 := h0.step (.enter 1) ⟨by decide, by decide⟩ trivial
  have h2 := h1.step (.getSemaphore 2) trivial trivial
  have h3 := h2.step (.exit 1) (List.mem_of_elem_eq_true rfl) trivial
  have hs : (bulkhead Nat).Reaches (fun t a => ¬ t.Retargets a)
      (((Bulkhead.start 8).act (.enter 1)).act (.getSemaphore 2)) _ := .refl
  have h4 := hs.step (.enter 2) ⟨by decide, by decide⟩ id
  have h5 := h4.step (.enter 3) ⟨by decide, by decide⟩ id
  have hidle : ¬ NeverOveradmits (fun (_ : Bulkhead Nat) _ => True) 8 := by
    intro hall
    have := (hall _ h3).2.2.1
    revert this
    decide
  exact ⟨hidle, ⟨_, _, h2, by decide, by decide, h5, by decide⟩,
    ⟨_, h3, by decide, by decide, by decide⟩⟩

end CentralOps
