import Mathlib.Data.List.Lemmas
import Mathlib.Logic.Function.Iterate

set_option autoImplicit true

/-- The future a suspended task waits on; `wokenCancelled` when the task was cancelled after the
future had its result. -/
inductive WaiterState where
  | pending
  | woken
  | cancelled
  | wokenCancelled
  deriving DecidableEq, Repr

/-- A permit has been set aside for the waiter. -/
def WaiterState.granted : WaiterState → Bool
  | .woken | .wokenCancelled => true
  | .pending | .cancelled => false

@[simp] theorem WaiterState.granted_pending : WaiterState.pending.granted = false := rfl
@[simp] theorem WaiterState.granted_woken : WaiterState.woken.granted = true := rfl
@[simp] theorem WaiterState.granted_cancelled : WaiterState.cancelled.granted = false := rfl
@[simp] theorem WaiterState.granted_wokenCancelled :
    WaiterState.wokenCancelled.granted = true := rfl

structure Semaphore (τ : Type) where
  value : Nat
  waiters : List (τ × WaiterState) := []
  deriving DecidableEq, Repr

namespace Semaphore

def wakeFirst : List (τ × WaiterState) → Option (List (τ × WaiterState))
  | [] => none
  | (t, .pending) :: ws => some ((t, .woken) :: ws)
  | w :: ws => (wakeFirst ws).map (w :: ·)

def wakeUpNext (s : Semaphore τ) : Semaphore τ :=
  match wakeFirst s.waiters with
  | some ws => { value := s.value - 1, waiters := ws }
  | none => s

def release (s : Semaphore τ) : Semaphore τ := wakeUpNext { s with value := s.value + 1 }

def locked (s : Semaphore τ) : Bool :=
  s.value == 0 || s.waiters.any (fun w => w.2 != .cancelled)

/-- `acquire` up to its first suspension, and whether it returned without one. -/
def acquire (s : Semaphore τ) (t : τ) : Semaphore τ × Bool :=
  if s.locked then ({ s with waiters := s.waiters ++ [(t, .pending)] }, false)
  else ({ s with value := s.value - 1 }, true)

section Tasks
variable [DecidableEq τ]

/-- `Task.cancel` on a task suspended in `acquire`. -/
def cancel (s : Semaphore τ) (t : τ) : Semaphore τ :=
  { s with waiters := s.waiters.map fun w =>
      if w.1 = t then
        (w.1, match w.2 with
          | .pending => .cancelled
          | .woken => .wokenCancelled
          | f => f)
      else w }

/-- `acquire` from the wake-up on: `true` when it returns, `false` when it raises
`CancelledError`, `none` while the future is not done. -/
def resume (s : Semaphore τ) (t : τ) : Option (Semaphore τ × Bool) :=
  let rest : Semaphore τ := { s with waiters := s.waiters.eraseP (fun w => w.1 == t) }
  match s.waiters.lookup t with
  | some .woken => some (if rest.value > 0 then rest.wakeUpNext else rest, true)
  | some .cancelled => some (rest, false)
  | some .wokenCancelled => some (wakeUpNext { rest with value := rest.value + 1 }, false)
  | some .pending | none => none

end Tasks

/-- Permits set aside for waiters that have not run yet. -/
def grants (s : Semaphore τ) : Nat := s.waiters.countP (fun w => w.2.granted)

def permits (s : Semaphore τ) : Nat := s.value + s.grants

theorem wakeFirst_some {ws ws' : List (τ × WaiterState)} (h : wakeFirst ws = some ws') :
    ws'.length = ws.length ∧
      ws'.countP (fun w => w.2.granted) = ws.countP (fun w => w.2.granted) + 1 := by
  induction ws generalizing ws' with
  | nil => simp [wakeFirst] at h
  | cons w ws ih =>
    obtain ⟨t, f⟩ := w
    cases f with
    | pending =>
      obtain rfl : (t, WaiterState.woken) :: ws = ws' := by simpa [wakeFirst] using h
      exact ⟨rfl, by simp [List.countP_cons]⟩
    | woken | cancelled | wokenCancelled =>
      simp only [wakeFirst, Option.map_eq_some_iff] at h
      obtain ⟨rest, hrest, rfl⟩ := h
      obtain ⟨hl, hc⟩ := ih hrest
      rw [List.length_cons, List.length_cons, hl, List.countP_cons, List.countP_cons, hc]
      exact ⟨rfl, Nat.add_right_comm _ _ _⟩

theorem wakeFirst_isSome {ws : List (τ × WaiterState)} (h : w ∈ ws) (hw : w.2 = .pending) :
    ∃ ws', wakeFirst ws = some ws' := by
  induction ws with
  | nil => simp at h
  | cons v ws ih =>
    obtain ⟨t, f⟩ := v
    cases f with
    | pending => exact ⟨_, rfl⟩
    | woken | cancelled | wokenCancelled =>
      rcases List.mem_cons.1 h with rfl | h
      · cases hw
      · obtain ⟨ws', hws'⟩ := ih h
        exact ⟨_, by simp [wakeFirst, hws']; rfl⟩

@[simp] theorem length_wakeUpNext (s : Semaphore τ) :
    s.wakeUpNext.waiters.length = s.waiters.length := by
  unfold wakeUpNext
  split
  next ws h => exact (wakeFirst_some h).1
  next => rfl

theorem permits_wakeUpNext {s : Semaphore τ} (h : 0 < s.value) :
    s.wakeUpNext.permits = s.permits := by
  unfold wakeUpNext
  split
  next ws hws =>
    have hc := (wakeFirst_some hws).2
    simp only [permits, grants, hc]
    omega
  next => rfl

theorem value_wakeUpNext_le (s : Semaphore τ) : s.wakeUpNext.value ≤ s.value := by
  unfold wakeUpNext
  split
  · exact Nat.sub_le _ _
  · exact le_rfl

theorem value_wakeUpNext_of_pending {s : Semaphore τ} (h : w ∈ s.waiters) (hw : w.2 = .pending) :
    s.wakeUpNext.value = s.value - 1 := by
  obtain ⟨ws, hws⟩ := wakeFirst_isSome h hw
  simp [wakeUpNext, hws]

@[simp] theorem length_release (s : Semaphore τ) :
    s.release.waiters.length = s.waiters.length := length_wakeUpNext _

@[simp] theorem permits_release (s : Semaphore τ) : s.release.permits = s.permits + 1 := by
  rw [release, permits_wakeUpNext (Nat.succ_pos _)]
  simp only [permits, grants]
  omega

theorem permits_release_iterate (n : Nat) (s : Semaphore τ) :
    (release^[n] s).permits = s.permits + n ∧
      (release^[n] s).waiters.length = s.waiters.length := by
  induction n with
  | zero => exact ⟨rfl, rfl⟩
  | succ n ih =>
    rw [Function.iterate_succ_apply', permits_release, length_release, ih.1, ih.2]
    exact ⟨by omega, rfl⟩

/-- What `acquire` takes out of the semaphore when it does not suspend. -/
theorem acquire_true {s s' : Semaphore τ} (h : s.acquire t = (s', true)) :
    s'.permits + 1 = s.permits ∧ s'.waiters = s.waiters ∧ s'.value ≤ s.value := by
  unfold acquire at h
  split at h
  next => simp at h
  next hlock =>
    obtain rfl : { s with value := s.value - 1 } = s' := by simpa using h
    have hv : s.value ≠ 0 := by
      intro h0
      simp [locked, h0] at hlock
    have hp : s.value - 1 + s.grants + 1 = s.value + s.grants := by omega
    exact ⟨hp, rfl, Nat.sub_le _ _⟩

theorem acquire_false {s s' : Semaphore τ} (h : s.acquire t = (s', false)) :
    s'.permits = s.permits ∧ s'.waiters.length = s.waiters.length + 1 ∧
      s'.value = s.value := by
  unfold acquire at h
  split at h
  next =>
    obtain rfl : { s with waiters := s.waiters ++ [(t, .pending)] } = s' := by simpa using h
    simp [permits, grants, List.countP_append]
  next => simp at h

section Tasks
variable [DecidableEq τ]

theorem lookup_eraseP {ws : List (τ × WaiterState)} (h : ws.lookup t = some f) :
    (ws.eraseP (fun w => w.1 == t)).length + 1 = ws.length ∧
      (ws.eraseP (fun w => w.1 == t)).countP (fun w => w.2.granted) + f.granted.toNat =
        ws.countP (fun w => w.2.granted) := by
  induction ws with
  | nil => simp at h
  | cons w ws ih =>
    obtain ⟨u, g⟩ := w
    by_cases hu : u = t
    · subst hu
      obtain rfl : g = f := by simpa using h
      cases g <;> simp [List.countP_cons]
    · rw [List.lookup_cons, beq_false_of_ne (Ne.symm hu)] at h
      obtain ⟨hl, hc⟩ := ih h
      rw [List.eraseP_cons_of_neg (by simpa using hu)]
      simp only [List.length_cons, List.countP_cons]
      omega

theorem mem_eraseP_of_lookup {ws : List (τ × WaiterState)} (h : ws.lookup t = some f)
    (hw : w ∈ ws) (hne : w.2 ≠ f) : w ∈ ws.eraseP (fun v => v.1 == t) := by
  induction ws with
  | nil => simp at hw
  | cons v ws ih =>
    obtain ⟨u, g⟩ := v
    by_cases hu : u = t
    · subst hu
      obtain rfl : g = f := by simpa using h
      rw [List.eraseP_cons_of_pos (by simp)]
      rcases List.mem_cons.1 hw with rfl | hw
      · exact absurd rfl hne
      · exact hw
    · rw [List.lookup_cons, beq_false_of_ne (Ne.symm hu)] at h
      rw [List.eraseP_cons_of_neg (by simpa using hu)]
      rcases List.mem_cons.1 hw with rfl | hw
      · exact List.mem_cons_self
      · exact List.mem_cons_of_mem _ (ih h hw)

@[simp] theorem length_cancel (s : Semaphore τ) (t : τ) :
    (s.cancel t).waiters.length = s.waiters.length := List.length_map _

@[simp] theorem permits_cancel (s : Semaphore τ) (t : τ) :
    (s.cancel t).permits = s.permits := by
  simp only [permits, grants, cancel, List.countP_map]
  congr 2
  funext w
  obtain ⟨u, f⟩ := w
  by_cases hu : u = t
  · cases f <;> simp [hu]
  · simp [hu]

/-- What a task that runs again leaves: it takes its permit along, or gives it back. -/
theorem resume_spec {s s' : Semaphore τ} (h : s.resume t = some (s', entered)) :
    s'.permits + entered.toNat = s.permits ∧ s'.waiters.length + 1 = s.waiters.length := by
  unfold resume at h
  cases hf : s.waiters.lookup t with
  | none => simp [hf] at h
  | some f =>
    obtain ⟨hl, hc⟩ := lookup_eraseP hf
    cases f with
    | pending => simp [hf] at h
    | cancelled =>
      obtain ⟨rfl, rfl⟩ : _ ∧ false = entered := by simpa [hf] using h
      rw [WaiterState.granted_cancelled, Bool.toNat_false] at hc
      simp only [permits, grants, Bool.toNat_false]
      omega
    | wokenCancelled =>
      obtain ⟨rfl, rfl⟩ : _ ∧ false = entered := by simpa [hf] using h
      rw [permits_wakeUpNext (Nat.succ_pos _), length_wakeUpNext]
      rw [WaiterState.granted_wokenCancelled, Bool.toNat_true] at hc
      simp only [permits, grants, Bool.toNat_false]
      omega
    | woken =>
      obtain ⟨rfl, rfl⟩ : _ ∧ true = entered := by simpa [hf] using h
      rw [WaiterState.granted_woken, Bool.toNat_true] at hc
      split
      next hv =>
        have hrest : 0 < Semaphore.value
            { s with waiters := s.waiters.eraseP (fun w => w.1 == t) } := hv
        rw [permits_wakeUpNext hrest, length_wakeUpNext]
        simp only [permits, grants, Bool.toNat_true]
        omega
      next =>
        simp only [permits, grants, Bool.toNat_true]
        omega

/-- A permit comes back to the counter only from a task cancelled after its wake-up, and then
only when nobody else waits. -/
theorem resume_value_le {s s' : Semaphore τ} (h : s.resume t = some (s', entered))
    (hw : s.waiters.lookup t = some .wokenCancelled →
      ∃ w ∈ s.waiters, w.2 = .pending) : s'.value ≤ s.value := by
  unfold resume at h
  cases hf : s.waiters.lookup t with
  | none => simp [hf] at h
  | some f =>
    cases f with
    | pending => simp [hf] at h
    | cancelled =>
      obtain ⟨rfl, rfl⟩ : _ ∧ false = entered := by simpa [hf] using h
      exact le_rfl
    | woken =>
      obtain ⟨rfl, rfl⟩ : _ ∧ true = entered := by simpa [hf] using h
      split
      · exact value_wakeUpNext_le _
      · exact le_rfl
    | wokenCancelled =>
      obtain ⟨rfl, rfl⟩ : _ ∧ false = entered := by simpa [hf] using h
      obtain ⟨w, hmem, hpend⟩ := hw hf
      have hrest : w ∈ s.waiters.eraseP (fun v => v.1 == t) :=
        mem_eraseP_of_lookup hf hmem (by rw [hpend]; simp)
      rw [value_wakeUpNext_of_pending hrest hpend]
      exact le_of_eq (Nat.add_sub_cancel _ _)

end Tasks
end Semaphore
