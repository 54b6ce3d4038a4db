import CentralOps.Lib.System
import Mathlib.Algebra.Order.Ring.Rat
import Mathlib.Tactic.Linarith

namespace CentralOps.Quota
set_option autoImplicit true

/-- `_Window`. -/
structure Window where
  duration : ℚ
  maxRequests : Nat
  timestamps : List ℚ := []

namespace Window
variable (w : Window) (now : ℚ)

def prune : Window :=
  { w with timestamps := w.timestamps.dropWhile (fun t => decide (t < now - w.duration)) }

/-- `wait_time`, of a window that has been pruned. -/
def waitTime : ℚ :=
  if w.timestamps.length < w.maxRequests then 0
  else
    match w.timestamps with
    | [] => 0
    | oldest :: _ => max 0 (oldest + w.duration - now)

def record : Window := { w with timestamps := w.timestamps ++ [now] }

/-- How many instants lie in the window that ends at `t`, where none is later. -/
def inside (t : ℚ) : Nat := w.timestamps.countP (fun x => decide (t - w.duration < x))

end Window

/-- The windows are checked one after another; where one has to wait, the call sleeps, and goes on
with the windows after it. -/
def sweep (now : ℚ) : List Window → List Window × Option (Nat × ℚ)
  | [] => ([], none)
  | w :: ws =>
    if 0 < (w.prune now).waitTime now then
      (w.prune now :: ws, some (1, now + (w.prune now).waitTime now))
    else
      (w.prune now :: (sweep now ws).1, (sweep now ws).2.map (fun p => (p.1 + 1, p.2)))

/-- The call that holds the lock and sleeps: what it was promised, when it may wake and how many
windows it has passed. -/
structure Sleeper where
  owed : List ℚ
  wake : ℚ
  passed : Nat

/-- The limiter of a tenant. A call knows the deadlines of the 429 answers before it; those that
wait for the lock are in their order. -/
structure Limiter where
  now : ℚ
  windows : List Window
  retryUntil : ℚ := 0
  holder : Option Sleeper := none
  waiting : List (List ℚ) := []
  promises : List ℚ := []
  returns : List (ℚ × List ℚ) := []

inductive Action where
  | tick (now : ℚ)
  | acquire
  | lock
  | wake
  | handle429 (retryAfter : Option Int)

def delay : Option Int → ℚ
  | none => 5
  | some r => if 0 < r then r else 5

namespace Limiter
variable (s : Limiter)

def advance (owed : List ℚ) (passed : Nat) : Limiter :=
  let windows := s.windows.take passed ++ (sweep s.now (s.windows.drop passed)).1
  match (sweep s.now (s.windows.drop passed)).2 with
  | some (n, wake) => { s with windows := windows, holder := some ⟨owed, wake, passed + n⟩ }
  | none =>
    { s with
      windows := windows.map (·.record s.now)
      holder := none
      returns := s.returns ++ [(s.now, owed)] }

def next : Action → Limiter
  | .tick now => { s with now := now }
  | .acquire => { s with waiting := s.waiting ++ [s.promises] }
  | .lock =>
    match s.waiting with
    | [] => s
    | owed :: waiting =>
      if 0 < s.retryUntil - s.now then
        { s with waiting := waiting, holder := some ⟨owed, s.now + (s.retryUntil - s.now), 0⟩ }
      else { s with waiting := waiting }.advance owed 0
  | .wake =>
    match s.holder with
    | none => s
    | some h => s.advance h.owed h.passed
  | .handle429 retryAfter =>
    { s with
      retryUntil := s.now + delay retryAfter
      promises := s.promises ++ [s.now + delay retryAfter] }

def Enabled : Action → Prop
  | .tick now => s.now ≤ now
  | .lock => s.holder.isNone = true ∧ s.waiting ≠ []
  | .wake => s.holder.any (fun h => decide (h.wake ≤ s.now)) = true
  | .acquire | .handle429 _ => True

end Limiter

def limiterSystem : System Limiter Action where
  enabled := Limiter.Enabled
  next := Limiter.next

/-- The windows of `_get_windows`, for the limits of the settings. -/
def getWindows (perSecond perMinute perHour perDay : Nat) : List Window :=
  [⟨1, perSecond, []⟩, ⟨60, perMinute, []⟩, ⟨3600, perHour, []⟩, ⟨86400, perDay, []⟩]

/-- In every interval of a window's length at most its limit of calls return. -/
def WithinQuota (limits : List Window) (s : Limiter) : Prop :=
  ∀ w ∈ limits, ∀ t,
    s.returns.countP (fun r => decide (t - w.duration < r.1 ∧ r.1 ≤ t)) ≤ w.maxRequests

/-- No call returns before a deadline that was set before it began. -/
def KeepsRetryAfter (s : Limiter) : Prop := ∀ r ∈ s.returns, ∀ deadline ∈ r.2, deadline ≤ r.1

/-- A window that is checked at the instant at which its oldest call is just as old as the window
is long, while it holds as many later ones as it allows. -/
def Window.Brimful (w : Window) (now : ℚ) : Prop :=
  now - w.duration ∈ w.timestamps ∧ w.maxRequests ≤ w.inside now

def Clear (now : ℚ) : List Window → Prop
  | [] => True
  | w :: ws => ¬ w.Brimful now ∧ ((w.prune now).waitTime now ≤ 0 → Clear now ws)

/-- A check finds no brimful window, and an answer does not set the deadline back. -/
def Proper (s : Limiter) : Action → Prop
  | .lock => s.retryUntil ≤ s.now → Clear s.now s.windows
  | .wake => ∀ h ∈ s.holder, Clear s.now (s.windows.drop h.passed)
  | .handle429 retryAfter => s.retryUntil ≤ s.now + delay retryAfter
  | .tick _ | .acquire => True

section Windows
variable {w : Window} {now t : ℚ} {returns : List ℚ}

/-- What holds of a window between the steps: its instants are in order and past, those that it has
forgotten are too old to count, and its quota was kept. -/
structure Window.Good (returns : List ℚ) (now : ℚ) (w : Window) : Prop where
  sorted : w.timestamps.Pairwise (· ≤ ·)
  kept : ∀ x ∈ w.timestamps, x ∈ returns
  past : ∀ x ∈ returns, x ≤ now
  tracks : ∀ t, now ≤ t → returns.countP (fun x => decide (t - w.duration < x)) = w.inside t
  positive : 0 < w.maxRequests
  quota : ∀ t, returns.countP (fun x => decide (t - w.duration < x ∧ x ≤ t)) ≤ w.maxRequests

def Window.Open (w : Window) (t : ℚ) : Prop := ∀ u, t ≤ u → w.inside u < w.maxRequests

theorem countP_dropWhile {p q : ℚ → Bool} (h : ∀ x, p x = true → q x = false) (l : List ℚ) :
    (l.dropWhile p).countP q = l.countP q := by
  induction l with
  | nil => rfl
  | cons x l ih =>
    rw [List.dropWhile_cons]
    split
    · rename_i hx
      rw [ih, List.countP_cons_of_neg (by rw [h x hx]; exact Bool.false_ne_true)]
    · rfl

theorem Window.inside_prune (ht : now ≤ t) : (w.prune now).inside t = w.inside t := by
  apply countP_dropWhile
  intro x hx
  have hold := of_decide_eq_true hx
  rw [decide_eq_false_iff_not, not_lt]
  exact hold.le.trans (sub_le_sub_right ht w.duration)

theorem Window.inside_anti {u : ℚ} (h : t ≤ u) : w.inside u ≤ w.inside t := by
  apply List.countP_mono_left
  intro x _ hx
  have hx := of_decide_eq_true hx
  rw [decide_eq_true_eq]
  linarith

theorem Window.Good.prune (h : w.Good returns now) : (w.prune now).Good returns now where
  sorted := h.sorted.sublist (List.dropWhile_sublist _)
  kept x hx := h.kept x ((List.dropWhile_sublist _).subset hx)
  past := h.past
  tracks t ht := (h.tracks t ht).trans (inside_prune ht).symm
  positive := h.positive
  quota := h.quota

theorem Window.Good.later (h : w.Good returns now) (ht : now ≤ t) : w.Good returns t where
  sorted := h.sorted
  kept := h.kept
  past x hx := (h.past x hx).trans ht
  tracks u hu := h.tracks u (ht.trans hu)
  positive := h.positive
  quota := h.quota

theorem Window.Good.inside_le (h : w.Good returns now) : w.inside now ≤ w.maxRequests := by
  rw [← h.tracks now le_rfl]
  have hall : returns.countP (fun x => decide (now - w.duration < x)) =
      returns.countP (fun x => decide (now - w.duration < x ∧ x ≤ now)) := by
    apply List.countP_congr
    intro x hx
    simp [h.past x hx]
  rw [hall]
  exact h.quota now

theorem dropWhile_ge {c : ℚ} {l : List ℚ} (hsorted : l.Pairwise (· ≤ ·)) :
    ∀ x ∈ l.dropWhile (fun y => decide (y < c)), c ≤ x := by
  induction l with
  | nil => simp
  | cons y l ih =>
    rw [List.dropWhile_cons]
    obtain ⟨hfirst, hrest⟩ := List.pairwise_cons.1 hsorted
    split
    · exact ih hrest
    · rename_i hy
      have hc : c ≤ y := not_lt.1 (fun hlt => hy (decide_eq_true hlt))
      exact List.forall_mem_cons.2 ⟨hc, fun x hx => hc.trans (hfirst x hx)⟩

theorem Window.Good.open_of_passes (h : w.Good returns now) (hclear : ¬ w.Brimful now)
    (hwait : (w.prune now).waitTime now ≤ 0) : w.Open now := by
  intro u hu
  apply lt_of_le_of_lt (inside_anti hu)
  rw [waitTime] at hwait
  split at hwait
  · rename_i hroom
    rw [← inside_prune le_rfl]
    exact lt_of_le_of_lt List.countP_le_length hroom
  · rename_i hfull
    by_contra hmany
    have hpositive := h.positive
    cases hts : (w.prune now).timestamps with
    | nil =>
      rw [hts] at hfull
      exact hfull hpositive
    | cons oldest rest =>
      have hmem : oldest ∈ (w.prune now).timestamps := by simp [hts]
      rw [hts] at hwait
      have hage : oldest + w.duration - now ≤ 0 := (le_max_right _ _).trans hwait
      have hyoung : now - w.duration ≤ oldest := dropWhile_ge h.sorted oldest hmem
      have hexact : now - w.duration = oldest := by linarith
      refine hclear ⟨?_, not_lt.1 hmany⟩
      rw [hexact]
      exact (List.dropWhile_sublist _).subset hmem

theorem Window.Good.open_of_waits (h : w.Good returns now)
    (hwait : 0 < (w.prune now).waitTime now) :
    w.Open (now + (w.prune now).waitTime now) := by
  intro u hu
  have hlater : now ≤ u := by linarith
  rw [← inside_prune hlater]
  rw [waitTime] at hwait hu
  split at hwait
  · exact absurd hwait (lt_irrefl _)
  rename_i hfull
  rw [if_neg hfull] at hu
  cases hts : (w.prune now).timestamps with
  | nil =>
    rw [hts] at hwait
    exact absurd hwait (lt_irrefl _)
  | cons oldest rest =>
    rw [hts] at hwait hu
    have hage : 0 < oldest + w.duration - now := by
      rcases lt_max_iff.1 hwait with hzero | hage
      · exact absurd hzero (lt_irrefl _)
      · exact hage
    have hgone : oldest + w.duration ≤ u := by
      have hmax := le_max_right 0 (oldest + w.duration - now)
      change now + max 0 (oldest + w.duration - now) ≤ u at hu
      linarith
    have hall : (w.prune now).inside now = (w.prune now).timestamps.length := by
      rw [inside, List.countP_eq_length]
      intro x hx
      have holdest : oldest ≤ x := by
        have hsorted := h.prune.sorted
        rw [hts] at hsorted hx
        rcases List.mem_cons.1 hx with rfl | hx
        · exact le_rfl
        · exact (List.pairwise_cons.1 hsorted).1 x hx
      rw [decide_eq_true_eq]
      change now - w.duration < x
      linarith
    have hquota := h.prune.inside_le
    rw [hall, hts, List.length_cons] at hquota
    rw [inside, hts, List.countP_cons_of_neg]
    · exact lt_of_le_of_lt List.countP_le_length hquota
    · rw [decide_eq_true_eq, not_lt]
      change oldest ≤ u - w.duration
      linarith

theorem Window.Good.record (h : w.Good returns now) (hopen : w.Open now) :
    (w.record now).Good (returns ++ [now]) now where
  sorted := by
    rw [Window.record, List.pairwise_append]
    refine ⟨h.sorted, List.pairwise_singleton _ _, fun x hx y hy => ?_⟩
    rw [List.mem_singleton.1 hy]
    exact h.past x (h.kept x hx)
  kept x hx := by
    rcases List.mem_append.1 hx with hold | hnew
    · exact List.mem_append_left _ (h.kept x hold)
    · exact List.mem_append_right _ hnew
  past x hx := by
    rcases List.mem_append.1 hx with hold | hnew
    · exact h.past x hold
    · exact (List.mem_singleton.1 hnew).le
  tracks t ht := by
    rw [List.countP_append, inside, Window.record, List.countP_append]
    exact congrArg (· + _) (h.tracks t ht)
  positive := h.positive
  quota t := by
    change _ ≤ w.maxRequests
    rw [List.countP_append]
    by_cases ht : now ≤ t
    · have hinside := hopen t ht
      rw [← h.tracks t ht] at hinside
      have hone : [now].countP (fun x => decide (t - w.duration < x ∧ x ≤ t)) ≤ 1 :=
        List.countP_le_length
      have hless : returns.countP (fun x => decide (t - w.duration < x ∧ x ≤ t)) ≤
          returns.countP (fun x => decide (t - w.duration < x)) := by
        apply List.countP_mono_left
        intro x _ hx
        exact decide_eq_true (of_decide_eq_true hx).1
      exact (Nat.add_le_add hless hone).trans hinside
    · have hnone : [now].countP (fun x => decide (t - w.duration < x ∧ x ≤ t)) = 0 := by
        simp [ht]
      rw [show (w.record now).duration = w.duration from rfl, hnone]
      exact h.quota t

theorem Window.Open.later {u : ℚ} (h : w.Open t) (hu : t ≤ u) : w.Open u :=
  fun v hv => h v (hu.trans hv)

theorem Window.Open.prune (h : w.Open t) (ht : now ≤ t) : (w.prune now).Open t := by
  intro u hu
  rw [inside_prune (ht.trans hu)]
  exact h u hu

end Windows

section Sweep
variable {ws : List Window} {now : ℚ} {returns : List ℚ}

/-- What the settings say of a window. -/
def Window.limit (w : Window) : ℚ × Nat := (w.duration, w.maxRequests)

theorem sweep_limits (ws : List Window) :
    (sweep now ws).1.map Window.limit = ws.map Window.limit := by
  induction ws with
  | nil => rfl
  | cons w ws ih =>
    rw [sweep]
    split
    · rfl
    · exact congrArg (w.limit :: ·) ih

theorem sweep_good (hgood : ∀ w ∈ ws, w.Good returns now) :
    ∀ w ∈ (sweep now ws).1, w.Good returns now := by
  induction ws with
  | nil => exact hgood
  | cons w ws ih =>
    obtain ⟨hw, hws⟩ := List.forall_mem_cons.1 hgood
    rw [sweep]
    split
    · exact List.forall_mem_cons.2 ⟨hw.prune, hws⟩
    · exact List.forall_mem_cons.2 ⟨hw.prune, ih hws⟩

/-- Where a sweep finds no brimful window, the windows that it passes have room: at once when it
goes through, and when it sleeps, from the moment it may wake. -/
theorem sweep_open (hgood : ∀ w ∈ ws, w.Good returns now) (hclear : Clear now ws) :
    ((sweep now ws).2 = none → ∀ w ∈ (sweep now ws).1, w.Open now) ∧
      ∀ n wake, (sweep now ws).2 = some (n, wake) →
        now ≤ wake ∧ ∀ w ∈ (sweep now ws).1.take n, w.Open wake := by
  induction ws with
  | nil => simp [sweep]
  | cons w ws ih =>
    obtain ⟨hw, hws⟩ := List.forall_mem_cons.1 hgood
    rw [sweep]
    split
    · rename_i hwait
      constructor
      · exact fun hnone => absurd hnone (Option.some_ne_none _)
      · intro n wake hsome
        cases hsome
        have hlater : now ≤ now + (w.prune now).waitTime now := by linarith
        refine ⟨hlater, fun x hx => ?_⟩
        rw [List.mem_singleton.1 hx]
        exact (hw.open_of_waits hwait).prune hlater
    · rename_i hwait
      have hopen := (hw.open_of_passes hclear.1 (not_lt.1 hwait)).prune le_rfl
      obtain ⟨hthrough, hsleeps⟩ := ih hws (hclear.2 (not_lt.1 hwait))
      constructor
      · intro hnone
        exact List.forall_mem_cons.2 ⟨hopen, hthrough (Option.map_eq_none_iff.1 hnone)⟩
      · intro n wake hsome
        obtain ⟨⟨m, u⟩, hinner, heq⟩ := Option.map_eq_some_iff.1 hsome
        cases heq
        obtain ⟨hlater, hrest⟩ := hsleeps m u hinner
        exact ⟨hlater, List.forall_mem_cons.2 ⟨hopen.later hlater, hrest⟩⟩

end Sweep

/-- The invariant: the windows are those of the settings and good, the deadlines stand, and the
call that sleeps has passed windows that will have room, and wakes after what it was promised. -/
structure Sound (limits : List Window) (s : Limiter) : Prop where
  limits : s.windows.map Window.limit = limits.map Window.limit
  good : ∀ w ∈ s.windows, w.Good (s.returns.map Prod.fst) s.now
  keeps : KeepsRetryAfter s
  promised : ∀ p ∈ s.promises, p ≤ s.retryUntil
  queued : ∀ owed ∈ s.waiting, ∀ p ∈ owed, p ∈ s.promises
  holding : ∀ h ∈ s.holder, (∀ p ∈ h.owed, p ≤ h.wake) ∧
    ∀ w ∈ s.windows.take h.passed, w.Open h.wake

section Steps
variable {limits : List Window} {s : Limiter}

theorem Sound.advance (hs : Sound limits s) {owed : List ℚ} {passed : Nat}
    (howed : ∀ p ∈ owed, p ≤ s.now) (hpassed : ∀ w ∈ s.windows.take passed, w.Open s.now)
    (hclear : Clear s.now (s.windows.drop passed)) : Sound limits (s.advance owed passed) := by
  have hrest : ∀ w ∈ s.windows.drop passed, w.Good (s.returns.map Prod.fst) s.now :=
    fun w hw => hs.good w (List.mem_of_mem_drop hw)
  obtain ⟨hthrough, hsleeps⟩ := sweep_open hrest hclear
  have hlimits : (s.windows.take passed ++ (sweep s.now (s.windows.drop passed)).1).map
      Window.limit = limits.map Window.limit := by
    rw [List.map_append, sweep_limits, ← List.map_append, List.take_append_drop, hs.limits]
  have hgood : ∀ w ∈ s.windows.take passed ++ (sweep s.now (s.windows.drop passed)).1,
      w.Good (s.returns.map Prod.fst) s.now :=
    List.forall_mem_append.2
      ⟨fun w hw => hs.good w (List.mem_of_mem_take hw), sweep_good hrest⟩
  rw [Limiter.advance]
  cases hsweep : (sweep s.now (s.windows.drop passed)).2 with
  | none =>
    have hopen := List.forall_mem_append.2 ⟨hpassed, hthrough hsweep⟩
    constructor
    · change List.map _ (List.map _ _) = _
      rw [List.map_map]
      exact hlimits
    · intro w hw
      obtain ⟨x, hx, rfl⟩ := List.mem_map.1 hw
      change Window.Good ((s.returns ++ [(s.now, owed)]).map Prod.fst) s.now _
      rw [List.map_append]
      exact (hgood x hx).record (hopen x hx)
    · intro r hr
      rcases List.mem_append.1 hr with hold | hnew
      · exact hs.keeps r hold
      · rw [List.mem_singleton.1 hnew]
        exact howed
    · exact hs.promised
    · exact hs.queued
    · exact fun h hh => absurd hh (Option.not_mem_none h)
  | some p =>
    obtain ⟨n, wake⟩ := p
    obtain ⟨hlater, hopen⟩ := hsleeps n wake hsweep
    have hlength : passed < s.windows.length := by
      by_contra hover
      rw [List.drop_eq_nil_of_le (not_lt.1 hover)] at hsweep
      cases hsweep
    refine ⟨hlimits, hgood, hs.keeps, hs.promised, hs.queued, fun h hh => ?_⟩
    cases hh
    refine ⟨fun p hp => (howed p hp).trans hlater, fun w hw => ?_⟩
    change w ∈ (s.windows.take passed ++ _).take (passed + n) at hw
    rw [List.take_append, List.length_take_of_le hlength.le, Nat.add_sub_cancel_left] at hw
    rcases List.mem_append.1 hw with hold | hnew
    · exact (hpassed w (List.mem_of_mem_take hold)).later hlater
    · exact hopen w hnew

theorem Sound.next (hs : Sound limits s) (a : Action) (henabled : s.Enabled a)
    (hproper : Proper s a) : Sound limits (s.next a) := by
  cases a with
  | tick now =>
    exact ⟨hs.limits, fun w hw => (hs.good w hw).later henabled, hs.keeps, hs.promised, hs.queued,
      hs.holding⟩
  | acquire =>
    refine ⟨hs.limits, hs.good, hs.keeps, hs.promised, fun owed howed p hp => ?_, hs.holding⟩
    rcases List.mem_append.1 howed with hold | hnew
    · exact hs.queued owed hold p hp
    · rwa [List.mem_singleton.1 hnew] at hp
  | handle429 retryAfter =>
    refine ⟨hs.limits, hs.good, hs.keeps, fun p hp => ?_, fun owed howed p hp => ?_, hs.holding⟩
    · rcases List.mem_append.1 hp with hold | hnew
      · exact (hs.promised p hold).trans hproper
      · exact (List.mem_singleton.1 hnew).le
    · exact List.mem_append_left _ (hs.queued owed howed p hp)
  | wake =>
    rw [Limiter.next]
    cases hholder : s.holder with
    | none => exact hs
    | some h =>
      have hwake : h.wake ≤ s.now := by
        change s.holder.any _ = true at henabled
        rw [hholder] at henabled
        exact of_decide_eq_true henabled
      obtain ⟨howed, hpassed⟩ := hs.holding h hholder
      exact hs.advance (fun p hp => (howed p hp).trans hwake)
        (fun w hw => (hpassed w hw).later hwake) (hproper h hholder)
  | lock =>
    rw [Limiter.next]
    cases hwaiting : s.waiting with
    | nil => exact hs
    | cons owed waiting =>
      have hpromised : ∀ p ∈ owed, p ≤ s.retryUntil := fun p hp =>
        hs.promised p (hs.queued owed (by rw [hwaiting]; exact List.mem_cons_self) p hp)
      have hqueued : ∀ o ∈ waiting, ∀ p ∈ o, p ∈ s.promises := fun o ho =>
        hs.queued o (by rw [hwaiting]; exact List.mem_cons_of_mem _ ho)
      simp only
      split
      · refine ⟨hs.limits, hs.good, hs.keeps, hs.promised, hqueued, fun h hh => ?_⟩
        cases hh
        refine ⟨fun p hp => ?_, by simp⟩
        change p ≤ s.now + (s.retryUntil - s.now)
        linarith [hpromised p hp]
      · rename_i hpast
        have hnow : s.retryUntil ≤ s.now := by linarith
        have hrest : Sound limits { s with waiting := waiting } :=
          ⟨hs.limits, hs.good, hs.keeps, hs.promised, hqueued, hs.holding⟩
        exact hrest.advance (fun p hp => (hpromised p hp).trans hnow) (by simp) (hproper hnow)

theorem Sound.withinQuota (hs : Sound limits s) : WithinQuota limits s := by
  intro w hw t
  have hmem : w.limit ∈ s.windows.map Window.limit := by
    rw [hs.limits]
    exact List.mem_map_of_mem hw
  obtain ⟨x, hx, hsame⟩ := List.mem_map.1 hmem
  have hquota := (hs.good x hx).quota t
  rw [List.countP_map] at hquota
  obtain ⟨hduration, hmax⟩ := Prod.mk.inj hsame
  rw [← hduration, ← hmax]
  exact hquota

end Steps

/-- The limiter before its first call. -/
def fresh (now : ℚ) (windows : List Window) : Limiter where
  now := now
  windows := windows

theorem sound_fresh {windows : List Window} (hlimits : ∀ w ∈ windows, 0 < w.maxRequests)
    (hempty : ∀ w ∈ windows, w.timestamps = []) (now : ℚ) : Sound windows (fresh now windows) := by
  refine ⟨rfl, fun w hw => ?_, by simp [KeepsRetryAfter, fresh], by simp [fresh], by simp [fresh],
    by simp [fresh]⟩
  constructor
  · rw [hempty w hw]
    exact List.Pairwise.nil
  · simp [hempty w hw]
  · simp [fresh]
  · simp [fresh, Window.inside, hempty w hw]
  · exact hlimits w hw
  · simp [fresh]

/-- In every run whose checks find no brimful window, and whose 429 answers do not set the deadline
back, the quotas and the deadlines are kept. -/
theorem quotas_kept {perSecond perMinute perHour perDay : Nat} (hsecond : 0 < perSecond)
    (hminute : 0 < perMinute) (hhour : 0 < perHour) (hday : 0 < perDay) {now : ℚ} {s : Limiter}
    (h : limiterSystem.Reaches Proper
      (fresh now (getWindows perSecond perMinute perHour perDay)) s) :
    WithinQuota (getWindows perSecond perMinute perHour perDay) s ∧ KeepsRetryAfter s := by
  have hstart : Sound (getWindows perSecond perMinute perHour perDay)
      (fresh now (getWindows perSecond perMinute perHour perDay)) := by
    apply sound_fresh
    · simp [getWindows, hsecond, hminute, hhour, hday]
    · simp [getWindows]
  have hs := h.invariant (fun _ a hs => hs.next a) hstart
  exact ⟨hs.withinQuota, hs.keeps⟩

section Example

/-- One call a second. -/
def tight : List Window := getWindows 1 100 1000 50000

def oneCall : Limiter := ((fresh 0 tight).next .acquire).next .lock

theorem oneCall_kept : oneCall.returns.map Prod.fst = [0] ∧
    WithinQuota tight oneCall ∧ KeepsRetryAfter oneCall := by
  refine ⟨by decide +kernel, ?_⟩
  have hcalled : limiterSystem.Reaches Proper (fresh 0 tight) ((fresh 0 tight).next .acquire) :=
    System.Reaches.step .refl Action.acquire trivial trivial
  have hclear : Clear 0 tight := by simp [tight, getWindows, Clear, Window.Brimful]
  exact quotas_kept Nat.one_pos (by decide) (by decide) (by decide)
    (hcalled.step Action.lock ⟨rfl, by simp [Limiter.next]⟩ fun _ => hclear)

/-- Three calls at once: the second wakes when the first is just one second old, and the third
passes at the same instant. -/
def burst : List Action :=
  [.acquire, .acquire, .acquire, .lock, .lock, .tick 1, .wake, .lock]

/-- An answer without a `Retry-After` follows one that asks for a minute. -/
def shortened : List Action :=
  [.handle429 (some 60), .handle429 none, .acquire, .lock, .tick 5, .wake]

instance (s : Limiter) : (a : Action) → Decidable (limiterSystem.enabled s a)
  | .tick now => inferInstanceAs (Decidable (s.now ≤ now))
  | .lock => inferInstanceAs (Decidable (s.holder.isNone = true ∧ s.waiting ≠ []))
  | .wake => inferInstanceAs (Decidable (s.holder.any _ = true))
  | .acquire | .handle429 _ => inferInstanceAs (Decidable True)

theorem burst_exceeds :
    (∃ s, limiterSystem.Reaches (fun _ _ => True) (fresh 0 tight) s ∧ ¬ WithinQuota tight s) ∧
      ∃ s, limiterSystem.Reaches (fun _ _ => True) (fresh 0 tight) s ∧ ¬ KeepsRetryAfter s := by
  have hburst : limiterSystem.Follows (fun _ _ => True) (fresh 0 tight) burst := by
    decide +kernel
  have hshortened : limiterSystem.Follows (fun _ _ => True) (fresh 0 tight) shortened := by
    decide +kernel
  refine ⟨⟨_, hburst.reaches, fun h => ?_⟩, ⟨_, hshortened.reaches, fun h => ?_⟩⟩
  · have hcount := h ⟨1, 1, []⟩ List.mem_cons_self 1
    revert hcount
    decide +kernel
  · have hreturned : (5, [60, 5]) ∈ (shortened.foldl Limiter.next (fresh 0 tight)).returns := by
      decide +kernel
    have hdeadline := h _ hreturned 60 List.mem_cons_self
    revert hdeadline
    decide +kernel

end Example

end CentralOps.Quota
