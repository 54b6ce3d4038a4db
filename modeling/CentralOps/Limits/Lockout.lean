import Mathlib.Data.List.TakeWhile
import CentralOps.Lib.FixedWindow
import CentralOps.Limits.Counters

namespace CentralOps
set_option autoImplicit true

/-- `_Window`, with the oldest instant first. -/
structure Window where
  duration : Int
  maxRequests : Int
  timestamps : List Rat := []

namespace Window

def prune (win : Window) (now : Rat) : Window :=
  { win with timestamps := win.timestamps.dropWhile (fun t => decide (t < now - win.duration)) }

def record (win : Window) (now : Rat) : Window :=
  { win with timestamps := win.timestamps ++ [now] }

/-- `wait_time` of a window that has been pruned; the callers have just recorded an instant. -/
def waitTime (win : Window) (now : Rat) : Rat :=
  if (win.timestamps.length : Int) < win.maxRequests then 0
  else max 0 (win.timestamps.head?.getD 0 + win.duration - now)

end Window

/-- `_InMemoryAttemptStore`. -/
structure MemoryStore where
  windows : String → Option Window := fun _ => none
  blockedUntil : String → Option Rat := fun _ => none

namespace MemoryStore

def blocked (m : MemoryStore) (key : String) : Rat := (m.blockedUntil key).getD 0

def setWindow (m : MemoryStore) (key : String) (win : Option Window) : MemoryStore :=
  { m with windows := Function.update m.windows key win }

def setBlocked (m : MemoryStore) (key : String) (t : Option Rat) : MemoryStore :=
  { m with blockedUntil := Function.update m.blockedUntil key t }

def cleanupKey (m : MemoryStore) (key : String) (now : Rat) : MemoryStore :=
  if m.blocked key ≠ 0 ∧ now < m.blocked key then m
  else
    match m.windows key with
    | none => m.setBlocked key none
    | some win =>
      if (win.prune now).timestamps = [] then (m.setWindow key none).setBlocked key none
      else m.setWindow key (some (win.prune now))

def retryAfter (key : String) (now : Rat) (m : MemoryStore) : Option Int × MemoryStore :=
  if now < m.blocked key then (some (max 1 ⌈m.blocked key - now⌉), m)
  else (none, m.cleanupKey key now)

def getWindow (cfg : AuthLimits) (m : MemoryStore) (key : String) : Window :=
  (m.windows key).getD ⟨cfg.failureWindow, cfg.failureLimit, []⟩

def registerFailure (cfg : AuthLimits) (key : String) (now : Rat) (m : MemoryStore) :
    (Int × Option Int) × MemoryStore :=
  if now < m.blocked key then
    let wait := some (max 1 ⌈m.blocked key - now⌉)
    match m.windows key with
    | none => ((0, wait), m)
    | some win =>
      (((win.prune now).timestamps.length, wait), m.setWindow key (some (win.prune now)))
  else
    let win := ((((m.getWindow cfg key).prune now).record now).prune now)
    let kept := m.setWindow key (some win)
    let lockoutWait := win.waitTime now
    if lockoutWait ≤ 0 then ((win.timestamps.length, none), kept)
    else
      let until_ := now + max (cfg.lockoutSeconds : Rat) lockoutWait
      ((win.timestamps.length, some (max 1 ⌈until_ - now⌉)), kept.setBlocked key (some until_))

end MemoryStore

/-- The two methods of a store on one key, at an instant; a store that raises answers nothing. -/
structure AttemptStore (σ : Type) where
  retryAfter : Rat → σ → Option Int × σ
  registerFailure : Rat → σ → Option (Int × Option Int) × σ

def memoryStore (cfg : AuthLimits) (key : String) : AttemptStore MemoryStore where
  retryAfter := MemoryStore.retryAfter key
  registerFailure now m :=
    (some (m.registerFailure cfg key now).1, (m.registerFailure cfg key now).2)

/-- A program of the limiters, alone with Redis at an instant. -/
def LimitTask.at_ (t : LimitTask β) (now : Rat) (w : LimitKeys) : Option β × LimitKeys :=
  t.run.play LimitKeys.exec { w with now := now }

def redisStore (cfg : AuthLimits) (key : String) : AttemptStore LimitKeys where
  retryAfter now w :=
    let r := LimitTask.at_ (RedisAttemptStore.retryAfter (RedisAttemptStore.lockoutKey key)) now w
    (r.1.join, r.2)
  registerFailure := LimitTask.at_ (RedisAttemptStore.registerFailure cfg key)

/-- A failure that was registered, and what the call returned. -/
structure Failure where
  at_ : Rat
  result : Option (Int × Option Int)

def Failure.locks (f : Failure) : Bool := (f.result.bind Prod.snd).isSome

/-- Attempts on one key: `retry_after` is asked, and where it answered none a failure may be
registered later. The failures have the newest first. -/
inductive Attempted (S : AttemptStore σ) (s₀ : σ) : List Failure → Rat → σ → Prop
  | start (t : Rat) : Attempted S s₀ [] t s₀
  | asked : Attempted S s₀ log now s → now ≤ t →
      Attempted S s₀ log t (S.retryAfter t s).2
  | registered : Attempted S s₀ log now s → now ≤ t₀ → (S.retryAfter t₀ s).1 = none → t₀ ≤ t →
      Attempted S s₀ (⟨t, (S.registerFailure t (S.retryAfter t₀ s).2).1⟩ :: log) t
        (S.registerFailure t (S.retryAfter t₀ s).2).2

/-- The failures from `a` to `a + w`, the oldest first. -/
def inStretch (a w : Rat) (log : List Failure) : List Failure :=
  log.reverse.filter (fun f => decide (a ≤ f.at_ ∧ f.at_ < a + w))

/-- In every half-open stretch of the length of the window the failure at the limit locks. -/
def BoundsGuessing (S : AttemptStore σ) (s₀ : σ) (cfg : AuthLimits) : Prop :=
  ∀ log now s, Attempted S s₀ log now s → ∀ a f,
    (inStretch a cfg.failureWindow log)[(cfg.failureLimit - 1).toNat]? = some f → f.locks = true

/-- After a failure that locks, `retry_after` answers for so many seconds. -/
def LocksFor (S : AttemptStore σ) (s₀ : σ) (seconds : Rat) : Prop :=
  ∀ f log now s, Attempted S s₀ (f :: log) now s → f.locks = true →
    ∀ t, now ≤ t → t < f.at_ + seconds → (S.retryAfter t s).1 ≠ none

theorem split_of_filter {p : α → Bool} {l : List α} (h : (l.filter p)[n]? = some x) :
    ∃ before after, l = before ++ x :: after ∧ (before.filter p).length = n ∧ p x = true := by
  induction l generalizing n with
  | nil => cases h
  | cons y l ih =>
    by_cases hy : p y = true
    · rw [List.filter_cons_of_pos hy] at h
      cases n with
      | zero =>
        obtain rfl : y = x := by simpa using h
        exact ⟨[], l, rfl, rfl, hy⟩
      | succ n =>
        rw [List.getElem?_cons_succ] at h
        obtain ⟨before, after, rfl, hlen, hx⟩ := ih h
        refine ⟨y :: before, after, rfl, ?_, hx⟩
        rw [List.filter_cons_of_pos hy, List.length_cons, hlen]
    · rw [List.filter_cons_of_neg hy] at h
      obtain ⟨before, after, rfl, hlen, hx⟩ := ih h
      refine ⟨y :: before, after, rfl, ?_, hx⟩
      rw [List.filter_cons_of_neg hy, hlen]

/-- The failures registered less than a window before `f`, with `f`. -/
def recent (cfg : AuthLimits) (f : Failure) (earlier : List Failure) : List Failure :=
  (f :: earlier).filter (fun g => decide (f.at_ - cfg.failureWindow < g.at_))

theorem recent_of_inStretch {cfg : AuthLimits} (hlimit : 1 ≤ cfg.failureLimit)
    (h : (inStretch a cfg.failureWindow log)[(cfg.failureLimit - 1).toNat]? = some f) :
    ∃ earlier, f :: earlier <:+ log ∧ cfg.failureLimit ≤ (recent cfg f earlier).length := by
  obtain ⟨before, after, hsplit, hlen, hin⟩ := split_of_filter h
  have hlog : log = after.reverse ++ f :: before.reverse := by
    rw [← List.reverse_reverse log, hsplit, List.reverse_append, List.reverse_cons,
      List.append_assoc, List.singleton_append]
  refine ⟨before.reverse, ⟨after.reverse, hlog.symm⟩, ?_⟩
  obtain ⟨hbegin, hend⟩ : a ≤ f.at_ ∧ f.at_ < a + cfg.failureWindow := of_decide_eq_true hin
  have hmore :
      (before.filter (fun g => decide (a ≤ g.at_ ∧ g.at_ < a + cfg.failureWindow))).length ≤
      (before.reverse.filter (fun g => decide (f.at_ - cfg.failureWindow < g.at_))).length := by
    rw [List.filter_reverse, List.length_reverse, ← List.countP_eq_length_filter,
      ← List.countP_eq_length_filter]
    apply List.countP_mono_left
    intro g _ hg
    have hstart := (of_decide_eq_true hg).1
    exact decide_eq_true (by linarith)
  have hself : f.at_ - cfg.failureWindow < f.at_ := by linarith
  rw [recent, List.filter_cons, if_pos (decide_eq_true hself), List.length_cons]
  omega

section Memory
variable {cfg : AuthLimits} {key : String} {m : MemoryStore} {log : List Failure} {now : Rat}

/-- `_prune` drops instants from before the window. -/
theorem Window.prune_split (win : Window) (now : Rat) :
    ∃ old, win.timestamps = old ++ (win.prune now).timestamps ∧
      ∀ t ∈ old, t < now - win.duration := by
  refine ⟨win.timestamps.takeWhile (fun t => decide (t < now - win.duration)),
    List.takeWhile_append_dropWhile.symm, fun t ht => ?_⟩
  have hlt := List.mem_takeWhile_imp ht
  exact of_decide_eq_true hlt

structure Dated (log : List Failure) (now : Rat) : Prop where
  sorted : (log.map Failure.at_).Pairwise (fun later earlier => earlier ≤ later)
  le_now : ∀ f ∈ log, f.at_ ≤ now

theorem Dated.later (h : Dated log now) (hle : now ≤ t) : Dated log t :=
  ⟨h.sorted, fun f hf => (h.le_now f hf).trans hle⟩

theorem Dated.add (h : Dated log now) (hle : now ≤ f.at_) : Dated (f :: log) f.at_ where
  sorted := by
    rw [List.map_cons, List.pairwise_cons]
    refine ⟨fun t ht => ?_, h.sorted⟩
    obtain ⟨g, hg, rfl⟩ := List.mem_map.1 ht
    exact (h.le_now g hg).trans hle
  le_now g hg := by
    obtain rfl | hg := List.mem_cons.1 hg
    · exact le_refl _
    · exact (h.le_now g hg).trans hle

theorem Attempted.dated {S : AttemptStore σ} (h : Attempted S s₀ log now s) : Dated log now := by
  induction h with
  | start t => exact ⟨.nil, fun f hf => absurd hf List.not_mem_nil⟩
  | asked _ hle ih => exact ih.later hle
  | registered _ hle _ hle' ih => exact ih.add (hle.trans hle')

/-- The store of one key: what its window holds is what was registered, but for instants from
before the window. -/
structure MemoryTraced (cfg : AuthLimits) (key : String) (log : List Failure) (now : Rat)
    (m : MemoryStore) : Prop where
  shaped : ∀ win, m.windows key = some win →
    win.duration = cfg.failureWindow ∧ win.maxRequests = cfg.failureLimit
  kept : ∃ old, (log.map Failure.at_).reverse = old ++ (m.getWindow cfg key).timestamps ∧
    ∀ t ∈ old, t < now - cfg.failureWindow
  blocked : ∀ f earlier, log = f :: earlier → f.locks = true →
    now < f.at_ + cfg.lockoutSeconds → f.at_ + cfg.lockoutSeconds ≤ m.blocked key
  /-- A key that is not in `_blocked_until` is read as blocked until 0. -/
  clock : m.blockedUntil key = none ∨ 0 ≤ now

theorem MemoryTraced.nonneg (h : MemoryTraced cfg key log now m) (hle : now ≤ t)
    (hfree : ¬ t < m.blocked key) : 0 ≤ t := by
  obtain hnone | hnow := h.clock
  · rw [MemoryStore.blocked, hnone] at hfree
    exact not_lt.1 hfree
  · exact hnow.trans hle

/-- A key whose `retry_after` is none is free from then on. -/
theorem MemoryTraced.free (h : MemoryTraced cfg key log now m) (hle : now ≤ t₀)
    (hnone : (MemoryStore.retryAfter key t₀ m).1 = none) (hle' : t₀ ≤ t) :
    ¬ t < (MemoryStore.retryAfter key t₀ m).2.blocked key := by
  rw [MemoryStore.retryAfter] at hnone ⊢
  split at hnone
  · cases hnone
  · next hfree =>
    have hnonneg := h.nonneg hle hfree
    have hold : ¬ t < m.blocked key := fun hlt => hfree (hle'.trans_lt hlt)
    have hpopped : ∀ m' : MemoryStore, ¬ t < (m'.setBlocked key none).blocked key := by
      intro m' hlt
      change t < (Function.update m'.blockedUntil key none key).getD 0 at hlt
      rw [Function.update_self] at hlt
      exact absurd (hnonneg.trans hle') (not_le.2 hlt)
    rw [if_neg hfree, MemoryStore.cleanupKey, if_neg (fun hb => hfree hb.2)]
    cases m.windows key with
    | none => exact hpopped m
    | some win =>
      simp only []
      split
      · exact hpopped _
      · exact hold

theorem MemoryTraced.shape (h : MemoryTraced cfg key log now m) :
    (m.getWindow cfg key).duration = cfg.failureWindow ∧
      (m.getWindow cfg key).maxRequests = cfg.failureLimit := by
  rw [MemoryStore.getWindow]
  cases hwin : m.windows key with
  | none => exact ⟨rfl, rfl⟩
  | some win => exact h.shaped win hwin

theorem getWindow_setWindow_some (win : Window) :
    (m.setWindow key (some win)).getWindow cfg key = win := by
  change (Function.update m.windows key (some win) key).getD _ = win
  rw [Function.update_self]
  rfl

theorem kept_prune {win : Window}
    (h : ∃ old, times = old ++ win.timestamps ∧ ∀ t ∈ old, t < now - win.duration)
    (hle : now ≤ t) :
    ∃ old, times = old ++ (win.prune t).timestamps ∧ ∀ s ∈ old, s < t - win.duration := by
  obtain ⟨old, rfl, hold⟩ := h
  obtain ⟨dropped, hsplit, hdropped⟩ := win.prune_split t
  refine ⟨old ++ dropped, by rw [List.append_assoc, ← hsplit], fun s hs => ?_⟩
  obtain hs | hs := List.mem_append.1 hs
  · have hlt := hold s hs
    linarith
  · exact hdropped s hs

/-- A question leaves the trace as it is. -/
theorem MemoryTraced.asked (h : MemoryTraced cfg key log now m) (hle : now ≤ t) :
    MemoryTraced cfg key log t (MemoryStore.retryAfter key t m).2 := by
  obtain ⟨old, hkept, hold⟩ := h.kept
  have holder : ∀ s ∈ old, s < t - cfg.failureWindow := by
    intro s hs
    have hlt := hold s hs
    linarith
  rw [MemoryStore.retryAfter]
  by_cases hblocked : t < m.blocked key
  · rw [if_pos hblocked]
    exact ⟨h.shaped, ⟨old, hkept, holder⟩, fun f earlier hlog hf hlt =>
      h.blocked f earlier hlog hf (hle.trans_lt hlt), h.clock.imp_right fun hnow => hnow.trans hle⟩
  · have hnonneg := h.nonneg hle hblocked
    rw [if_neg hblocked, MemoryStore.cleanupKey, if_neg (fun hb => hblocked hb.2)]
    have hfree : ∀ f earlier, log = f :: earlier → f.locks = true →
        ¬ t < f.at_ + cfg.lockoutSeconds := by
      intro f earlier hlog hf hlt
      exact hblocked (hlt.trans_le (h.blocked f earlier hlog hf (hle.trans_lt hlt)))
    cases hwin : m.windows key with
    | none =>
      refine ⟨?_, ⟨old, hkept, holder⟩, fun f earlier hlog hf hlt =>
        absurd hlt (hfree f earlier hlog hf), .inr hnonneg⟩
      exact h.shaped
    | some win =>
      have hget : m.getWindow cfg key = win := by rw [MemoryStore.getWindow, hwin]; rfl
      obtain ⟨hduration, hmax⟩ := h.shaped win hwin
      have hheld : ∃ old, (log.map Failure.at_).reverse = old ++ win.timestamps ∧
          ∀ s ∈ old, s < now - win.duration := ⟨old, hget ▸ hkept, hduration ▸ hold⟩
      have hpruned := kept_prune hheld hle
      rw [hduration] at hpruned
      by_cases hempty : (win.prune t).timestamps = []
      · simp only [hempty, if_true]
        refine ⟨?_, ?_, fun f earlier hlog hf hlt => absurd hlt (hfree f earlier hlog hf),
          .inr hnonneg⟩
        · intro win' hwin'
          change Function.update m.windows key none key = some win' at hwin'
          rw [Function.update_self] at hwin'
          cases hwin'
        · obtain ⟨old', hkept', hold'⟩ := hpruned
          rw [hempty] at hkept'
          refine ⟨old', ?_, hold'⟩
          rw [hkept', MemoryStore.getWindow]
          change _ = old' ++ ((Function.update m.windows key none key).getD _).timestamps
          rw [Function.update_self]
          rfl
      · simp only [hempty, if_false]
        refine ⟨?_, ?_, fun f earlier hlog hf hlt => absurd hlt (hfree f earlier hlog hf),
          .inr hnonneg⟩
        · intro win' hwin'
          change Function.update m.windows key _ key = some win' at hwin'
          rw [Function.update_self] at hwin'
          cases hwin'
          exact ⟨hduration, hmax⟩
        · rw [getWindow_setWindow_some]
          exact hpruned

/-- The window after a failure at `t` is registered. -/
def countedWindow (cfg : AuthLimits) (key : String) (m : MemoryStore) (t : Rat) : Window :=
  (((m.getWindow cfg key).prune t).record t).prune t

theorem MemoryTraced.counted (h : MemoryTraced cfg key log now m) (hle : now ≤ t)
    (r : Option (Int × Option Int)) :
    ∃ old, (((⟨t, r⟩ : Failure) :: log).map Failure.at_).reverse =
        old ++ (countedWindow cfg key m t).timestamps ∧
      ∀ s ∈ old, s < t - cfg.failureWindow := by
  obtain ⟨hduration, -⟩ := h.shape
  have hkept := h.kept
  rw [← hduration] at hkept ⊢
  obtain ⟨old, htimes, hold⟩ := kept_prune hkept hle
  have hrecorded : ∃ old, (((⟨t, r⟩ : Failure) :: log).map Failure.at_).reverse =
      old ++ (((m.getWindow cfg key).prune t).record t).timestamps ∧
      ∀ s ∈ old, s < t - (m.getWindow cfg key).duration := by
    refine ⟨old, ?_, hold⟩
    rw [List.map_cons, List.reverse_cons, htimes, Window.record, List.append_assoc]
  exact kept_prune hrecorded (le_refl t)

theorem recent_length_le {times : List Rat} {f : Failure} {earlier : List Failure}
    (htimes : ((f :: earlier).map Failure.at_).reverse = old ++ times)
    (hold : ∀ s ∈ old, s < f.at_ - cfg.failureWindow) :
    (recent cfg f earlier).length ≤ times.length := by
  have hnone : old.countP (fun s => decide (f.at_ - cfg.failureWindow < s)) = 0 := by
    apply List.countP_eq_zero.2
    intro s hs hlt
    exact absurd (of_decide_eq_true hlt) (not_lt.2 (hold s hs).le)
  calc (recent cfg f earlier).length
      = ((f :: earlier).map Failure.at_).countP
          (fun s => decide (f.at_ - cfg.failureWindow < s)) := by
        rw [recent, ← List.countP_eq_length_filter, List.countP_map]
        rfl
    _ = (old ++ times).countP (fun s => decide (f.at_ - cfg.failureWindow < s)) := by
        rw [← htimes, List.countP_reverse]
    _ = times.countP (fun s => decide (f.at_ - cfg.failureWindow < s)) := by
        rw [List.countP_append, hnone, Nat.zero_add]
    _ ≤ times.length := List.countP_le_length

theorem MemoryTraced.wait_pos (h : MemoryTraced cfg key log now m) (hle : now ≤ t)
    (hwindow : 1 ≤ cfg.failureWindow) (hedge : ∀ g ∈ log, g.at_ ≠ t - cfg.failureWindow)
    (hfull : cfg.failureLimit ≤ (recent cfg ⟨t, r⟩ log).length) (hlimit : 1 ≤ cfg.failureLimit) :
    0 < (countedWindow cfg key m t).waitTime t := by
  obtain ⟨hduration, hmax⟩ := h.shape
  obtain ⟨old, htimes, hold⟩ := h.counted hle r
  have hwin : (1 : Rat) ≤ cfg.failureWindow := by exact_mod_cast hwindow
  have hlen := recent_length_le htimes hold
  have hmany : ¬ ((countedWindow cfg key m t).timestamps.length : Int) <
      (countedWindow cfg key m t).maxRequests := by
    rw [show (countedWindow cfg key m t).maxRequests = cfg.failureLimit from hmax]
    omega
  have hne : (countedWindow cfg key m t).timestamps ≠ [] := by
    intro hnil
    rw [hnil, List.length_nil] at hlen
    omega
  obtain ⟨oldest, holdest⟩ := Option.ne_none_iff_exists'.1 (mt List.head?_eq_none_iff.1 hne)
  have hnotlt : ¬ oldest < t - cfg.failureWindow := by
    have hhead := List.head?_dropWhile_not
      (fun s => decide (s < t - (countedWindow cfg key m t).duration))
      (((m.getWindow cfg key).prune t).record t).timestamps
    have hhead' : ((((m.getWindow cfg key).prune t).record t).timestamps.dropWhile
        (fun s => decide (s < t - (countedWindow cfg key m t).duration))).head? =
        some oldest := holdest
    rw [hhead'] at hhead
    rw [← hduration]
    exact of_decide_eq_false hhead
  have hedge' : oldest ≠ t - cfg.failureWindow := by
    have hmem : oldest ∈ (((⟨t, r⟩ : Failure) :: log).map Failure.at_) := by
      rw [← List.mem_reverse, htimes]
      exact List.mem_append_right _ (List.mem_of_mem_head? holdest)
    obtain ⟨g, hg, rfl⟩ := List.mem_map.1 hmem
    obtain rfl | hg := List.mem_cons.1 hg
    · intro he
      change t = _ at he
      linarith
    · exact hedge g hg
  have hlater : t - cfg.failureWindow < oldest := lt_of_le_of_ne (not_lt.1 hnotlt) hedge'.symm
  rw [Window.waitTime, if_neg hmany, holdest,
    show (countedWindow cfg key m t).duration = cfg.failureWindow from hduration]
  apply lt_max_of_lt_right
  change 0 < oldest + cfg.failureWindow - t
  linarith

theorem registerFailure_free (hfree : ¬ t < m.blocked key) :
    MemoryStore.registerFailure cfg key t m =
      if (countedWindow cfg key m t).waitTime t ≤ 0 then
        ((((countedWindow cfg key m t).timestamps.length : Int), none),
          m.setWindow key (some (countedWindow cfg key m t)))
      else
        ((((countedWindow cfg key m t).timestamps.length : Int),
            some (max 1 ⌈t + max (cfg.lockoutSeconds : Rat)
              ((countedWindow cfg key m t).waitTime t) - t⌉)),
          (m.setWindow key (some (countedWindow cfg key m t))).setBlocked key
            (some (t + max (cfg.lockoutSeconds : Rat)
              ((countedWindow cfg key m t).waitTime t)))) := by
  rw [MemoryStore.registerFailure, if_neg hfree]
  rfl

theorem MemoryTraced.registered (h : MemoryTraced cfg key log now m) (hle : now ≤ t)
    (hfree : ¬ t < m.blocked key) :
    MemoryTraced cfg key (⟨t, ((memoryStore cfg key).registerFailure t m).1⟩ :: log) t
      ((memoryStore cfg key).registerFailure t m).2 := by
  obtain ⟨old, htimes, hold⟩ := h.counted hle ((memoryStore cfg key).registerFailure t m).1
  obtain ⟨hduration, hmax⟩ := h.shape
  have hwindows : (m.registerFailure cfg key t).2.windows =
      Function.update m.windows key (some (countedWindow cfg key m t)) := by
    rw [registerFailure_free hfree]
    split <;> rfl
  have hself : (m.registerFailure cfg key t).2.windows key =
      some (countedWindow cfg key m t) := by
    rw [hwindows, Function.update_self]
  refine ⟨?_, ⟨old, ?_, hold⟩, ?_, .inr (h.nonneg hle hfree)⟩
  · intro win hwin
    obtain rfl := Option.some.inj (hself.symm.trans hwin)
    exact ⟨hduration, hmax⟩
  · rw [htimes]
    change _ = old ++ (((m.registerFailure cfg key t).2.windows key).getD _).timestamps
    rw [hself]
    rfl
  · intro f earlier hlog hlocks _
    obtain ⟨rfl, -⟩ := List.cons.inj hlog
    change ((m.registerFailure cfg key t).1.2).isSome = true at hlocks
    change _ ≤ (m.registerFailure cfg key t).2.blocked key
    rw [registerFailure_free hfree] at hlocks ⊢
    split at hlocks
    · cases hlocks
    · next hwait =>
      rw [if_neg hwait]
      change _ ≤ (Function.update m.blockedUntil key _ key).getD 0
      rw [Function.update_self]
      change t + (cfg.lockoutSeconds : Rat) ≤ t + max (cfg.lockoutSeconds : Rat) _
      exact add_le_add_right (le_max_left _ _) t

structure MemoryHistory (cfg : AuthLimits) (key : String) (log : List Failure) (now : Rat)
    (m : MemoryStore) : Prop where
  traced : MemoryTraced cfg key log now m
  full : ∀ f earlier, f :: earlier <:+ log → (∀ g ∈ earlier, g.at_ ≠ f.at_ - cfg.failureWindow) →
    cfg.failureLimit ≤ (recent cfg f earlier).length → f.locks = true

theorem memory_history (hlimit : 1 ≤ cfg.failureLimit) (hwindow : 1 ≤ cfg.failureWindow)
    (h : Attempted (memoryStore cfg key) {} log now m) : MemoryHistory cfg key log now m := by
  induction h with
  | start t =>
    refine ⟨⟨fun _ h => (nomatch h), ⟨[], rfl, fun s hs => absurd hs List.not_mem_nil⟩,
      fun _ _ h => (nomatch h), .inl rfl⟩, fun f earlier h => ?_⟩
    cases List.suffix_nil.1 h
  | asked _ hle ih => exact ⟨ih.traced.asked hle, ih.full⟩
  | @registered log now m t₀ t _ hle hnone hle' ih =>
    have hasked := ih.traced.asked hle
    have hfree := ih.traced.free hle hnone hle'
    refine ⟨hasked.registered hle' hfree, fun f earlier h hedge hfull => ?_⟩
    obtain h | h := List.suffix_cons_iff.1 h
    · obtain ⟨rfl, rfl⟩ := List.cons.inj h
      have hwait := hasked.wait_pos hle' hwindow hedge hfull hlimit
      change (MemoryStore.registerFailure cfg key t
        (MemoryStore.retryAfter key t₀ m).2).1.2.isSome = true
      rw [registerFailure_free hfree, if_neg (not_le.2 hwait)]
      rfl
    · exact ih.full f earlier h hedge hfull

theorem memory_locksFor (hlimit : 1 ≤ cfg.failureLimit) (hwindow : 1 ≤ cfg.failureWindow) :
    LocksFor (memoryStore cfg key) {} cfg.lockoutSeconds := by
  intro f log now m h hf t hle hlt
  have htraced := (memory_history hlimit hwindow h).traced
  have hblocked := htraced.blocked f log rfl hf (hle.trans_lt hlt)
  change (MemoryStore.retryAfter key t m).1 ≠ none
  rw [MemoryStore.retryAfter, if_pos (hlt.trans_le hblocked)]
  exact Option.some_ne_none _

end Memory

section Redis
variable {cfg : AuthLimits} {key : String} {w : LimitKeys} {log : List Failure} {now t : Rat}

theorem play_redis {q : LimitAsk} {r : LimitReply q} (f : LimitReply q → LimitTask β)
    (h : w.exec q = (some r, u)) :
    (redis q >>= f).run.play LimitKeys.exec w = (f r).run.play LimitKeys.exec u := by
  rw [OptionT.run_bind]
  change (Dialog.query q >>= _).play LimitKeys.exec w = _
  rw [Dialog.play_query, h]
  rfl

def LimitKeys.countUp (cfg : AuthLimits) (key : String) (w : LimitKeys) : Option Int × LimitKeys :=
  let r := w.incr (RedisAttemptStore.cntKey key)
  (r.1, if r.1 = some 1 then r.2.expire (RedisAttemptStore.cntKey key) cfg.failureWindow else r.2)

theorem lockAtLimit_play (hlockout : 1 ≤ cfg.lockoutSeconds) (n : Int) (u : LimitKeys) :
    (RedisAttemptStore.lockAtLimit cfg key n).run.play LimitKeys.exec u =
      if cfg.failureLimit ≤ n then
        (some (n, some cfg.lockoutSeconds), u.put (RedisAttemptStore.lockoutKey key)
          (some ⟨.number 1, some (u.now + cfg.lockoutSeconds)⟩))
      else (some (n, none), u) := by
  rw [RedisAttemptStore.lockAtLimit]
  by_cases h : cfg.failureLimit ≤ n
  · rw [if_pos h, if_pos h, RedisAttemptStore.lockAt]
    have hset : u.exec (.setEx (RedisAttemptStore.lockoutKey key) cfg.lockoutSeconds) =
        (some (), u.put (RedisAttemptStore.lockoutKey key)
          (some ⟨.number 1, some (u.now + cfg.lockoutSeconds)⟩)) :=
      if_neg (by omega)
    rw [play_redis _ hset]
    rfl
  · rw [if_neg h, if_neg h]
    rfl

/-- A failure that is registered without a lockout that `TTL` sees. -/
theorem registerFailure_at (hlockout : 1 ≤ cfg.lockoutSeconds)
    (hfree : ¬ 0 < Volatile.ttl t (w.keys (RedisAttemptStore.lockoutKey key)))
    (hcount : ({ w with now := t } : LimitKeys).countUp cfg key = (some n, u)) :
    LimitTask.at_ (RedisAttemptStore.registerFailure cfg key) t w =
      if cfg.failureLimit ≤ n then
        (some (n, some cfg.lockoutSeconds), u.put (RedisAttemptStore.lockoutKey key)
          (some ⟨.number 1, some (u.now + cfg.lockoutSeconds)⟩))
      else (some (n, none), u) := by
  obtain ⟨hn, hu⟩ := Prod.mk.inj hcount
  rw [hn] at hu
  have hincr : ({ w with now := t } : LimitKeys).exec (.incr (RedisAttemptStore.cntKey key)) =
      (some n, (({ w with now := t } : LimitKeys).incr (RedisAttemptStore.cntKey key)).2) :=
    Prod.ext hn rfl
  have httl : ({ w with now := t } : LimitKeys).exec (.ttl (RedisAttemptStore.lockoutKey key)) =
      (some (Volatile.ttl t (w.keys (RedisAttemptStore.lockoutKey key))),
        { w with now := t }) := rfl
  rw [LimitTask.at_, RedisAttemptStore.registerFailure, play_redis _ httl, if_neg hfree,
    play_redis _ hincr, expireFirst]
  by_cases hone : n = 1
  · rw [if_pos (congrArg some hone)] at hu
    rw [if_pos hone, play_redis (r := ()) _ rfl, ← lockAtLimit_play hlockout, ← hu]
  · rw [if_neg (fun h => hone (Option.some.inj h))] at hu
    rw [if_neg hone, ← lockAtLimit_play hlockout, ← hu]
    rfl

def CounterShows (cfg : AuthLimits) (key : String) (w : LimitKeys) : List Failure → Prop
  | [] => w.keys (RedisAttemptStore.cntKey key) = none
  | f :: earlier =>
    w.keys (RedisAttemptStore.cntKey key) =
      some ⟨.number (FixedWindow.place cfg.failureWindow f.at_ (earlier.map Failure.at_)).2,
        some ((FixedWindow.place cfg.failureWindow f.at_ (earlier.map Failure.at_)).1 +
          cfg.failureWindow)⟩

theorem countUp_begin (hwindow : 1 ≤ cfg.failureWindow)
    (hread : w.read (RedisAttemptStore.cntKey key) = none) :
    w.countUp cfg key = (some 1, (w.incr (RedisAttemptStore.cntKey key)).2.expire
        (RedisAttemptStore.cntKey key) cfg.failureWindow) ∧
      (w.countUp cfg key).2.keys (RedisAttemptStore.cntKey key) =
        some ⟨.number 1, some (w.now + cfg.failureWindow)⟩ := by
  have hincr : w.incr (RedisAttemptStore.cntKey key) =
      (some 1, w.put (RedisAttemptStore.cntKey key) (some ⟨.number 1, none⟩)) := by
    rw [LimitKeys.incr, hread]
  have hcount : w.countUp cfg key = (some 1, (w.incr (RedisAttemptStore.cntKey key)).2.expire
      (RedisAttemptStore.cntKey key) cfg.failureWindow) := by
    rw [LimitKeys.countUp, hincr, if_pos rfl]
  refine ⟨hcount, ?_⟩
  have hpos : ¬ cfg.failureWindow ≤ 0 := by omega
  rw [hcount, hincr, LimitKeys.expire, LimitKeys.put_keys, if_pos rfl, LimitKeys.put_keys,
    if_pos rfl, Volatile.expire, if_neg hpos]
  rfl

theorem countUp_stay (cfg : AuthLimits) {n : Int} (hn : 1 ≤ n)
    (hread : w.read (RedisAttemptStore.cntKey key) = some ⟨.number n, e⟩) :
    w.countUp cfg key = (some (n + 1), (w.incr (RedisAttemptStore.cntKey key)).2) ∧
      (w.countUp cfg key).2.keys (RedisAttemptStore.cntKey key) =
        some ⟨.number (n + 1), e⟩ := by
  have hincr : w.incr (RedisAttemptStore.cntKey key) =
      (some (n + 1), w.put (RedisAttemptStore.cntKey key) (some ⟨.number (n + 1), e⟩)) := by
    rw [LimitKeys.incr, hread]
  have hone : ¬ (some (n + 1) : Option Int) = some 1 := by
    rw [Option.some.injEq]
    omega
  have hcount : w.countUp cfg key =
      (some (n + 1), (w.incr (RedisAttemptStore.cntKey key)).2) := by
    rw [LimitKeys.countUp, hincr, if_neg hone]
  refine ⟨hcount, ?_⟩
  rw [hcount, hincr, LimitKeys.put_keys, if_pos rfl]

theorem CounterShows.countUp (h : CounterShows cfg key w log) (hwindow : 1 ≤ cfg.failureWindow)
    (t : Rat) (r : Option (Int × Option Int)) :
    (({ w with now := t } : LimitKeys).countUp cfg key).1 =
        some ((FixedWindow.place cfg.failureWindow t (log.map Failure.at_)).2 : Int) ∧
      CounterShows cfg key (({ w with now := t } : LimitKeys).countUp cfg key).2
        (⟨t, r⟩ :: log) := by
  cases log with
  | nil =>
    have hread : ({ w with now := t } : LimitKeys).read (RedisAttemptStore.cntKey key) = none := by
      change Volatile.read t (w.keys _) = none
      rw [show w.keys (RedisAttemptStore.cntKey key) = none from h]
      rfl
    obtain ⟨hcount, hkeys⟩ := countUp_begin hwindow hread
    exact ⟨congrArg Prod.fst hcount, hkeys⟩
  | cons g earlier =>
    have hpos := FixedWindow.place_pos cfg.failureWindow g.at_ (earlier.map Failure.at_)
    by_cases hstay : t ≤ (FixedWindow.place cfg.failureWindow g.at_ (earlier.map Failure.at_)).1 +
        cfg.failureWindow
    · have hread : ({ w with now := t } : LimitKeys).read (RedisAttemptStore.cntKey key) =
          some ⟨.number (FixedWindow.place cfg.failureWindow g.at_ (earlier.map Failure.at_)).2,
            some ((FixedWindow.place cfg.failureWindow g.at_ (earlier.map Failure.at_)).1 +
              cfg.failureWindow)⟩ := by
        change Volatile.read t (w.keys _) = _
        rw [h, Volatile.read, Option.filter_some, Option.all_some, if_pos (decide_eq_true hstay)]
      obtain ⟨hcount, hkeys⟩ := countUp_stay cfg (by exact_mod_cast hpos) hread
      rw [CounterShows, List.map_cons, FixedWindow.place_stay hstay]
      push_cast
      exact ⟨congrArg Prod.fst hcount, hkeys⟩
    · have hread :
          ({ w with now := t } : LimitKeys).read (RedisAttemptStore.cntKey key) = none := by
        change Volatile.read t (w.keys _) = _
        rw [h, Volatile.read, Option.filter_some, Option.all_some, if_neg]
        rw [decide_eq_true_eq]
        exact hstay
      obtain ⟨hcount, hkeys⟩ := countUp_begin hwindow hread
      rw [CounterShows, List.map_cons, FixedWindow.place_begin hstay]
      exact ⟨congrArg Prod.fst hcount, hkeys⟩

theorem countUp_now (cfg : AuthLimits) (key : String) (w : LimitKeys) :
    (w.countUp cfg key).2.now = w.now := by
  rw [LimitKeys.countUp]
  simp only []
  split
  · exact LimitKeys.incr_now w _
  · exact LimitKeys.incr_now w _

theorem CounterShows.lock (h : CounterShows cfg key w log) (v : Option (Volatile LimitValue)) :
    CounterShows cfg key (w.put (RedisAttemptStore.lockoutKey key) v) log := by
  have hne : RedisAttemptStore.cntKey key ≠ RedisAttemptStore.lockoutKey key :=
    (LimitCall.registerFailure key).counterKey_ne_lockout key
  cases log with
  | nil =>
    rw [CounterShows, LimitKeys.put_keys_ne hne]
    exact h
  | cons f earlier =>
    rw [CounterShows, LimitKeys.put_keys_ne hne]
    exact h

structure RedisHistory (cfg : AuthLimits) (key : String) (log : List Failure) (w : LimitKeys) :
    Prop where
  counter : CounterShows cfg key w log
  windows : ∀ f earlier, f :: earlier <:+ log → (f.locks = true ↔ cfg.failureLimit ≤
    (FixedWindow.place cfg.failureWindow f.at_ (earlier.map Failure.at_)).2)
  lockout : ∀ f earlier, log = f :: earlier → f.locks = true →
    w.keys (RedisAttemptStore.lockoutKey key) =
      some ⟨.number 1, some (f.at_ + cfg.lockoutSeconds)⟩

theorem RedisHistory.registered (h : RedisHistory cfg key log w) (hwindow : 1 ≤ cfg.failureWindow)
    (hlockout : 1 ≤ cfg.lockoutSeconds)
    (hfree : ¬ 0 < Volatile.ttl t (w.keys (RedisAttemptStore.lockoutKey key))) :
    RedisHistory cfg key (⟨t, ((redisStore cfg key).registerFailure t w).1⟩ :: log)
      ((redisStore cfg key).registerFailure t w).2 := by
  obtain ⟨hcount, hshows⟩ :=
    h.counter.countUp hwindow t ((redisStore cfg key).registerFailure t w).1
  have hnow := countUp_now cfg key { w with now := t }
  have hresult := registerFailure_at hlockout hfree (Prod.ext hcount rfl)
  have hlocks : (((redisStore cfg key).registerFailure t w).1.bind Prod.snd).isSome = true ↔
      cfg.failureLimit ≤ (FixedWindow.place cfg.failureWindow t (log.map Failure.at_)).2 := by
    change ((LimitTask.at_ _ t w).1.bind Prod.snd).isSome = true ↔ _
    rw [hresult]
    split
    · next hfull => exact ⟨fun _ => hfull, fun _ => rfl⟩
    · next hfull => exact ⟨fun hnone => (nomatch hnone), fun hle => absurd hle hfull⟩
  refine ⟨?_, ?_, ?_⟩
  · change CounterShows cfg key (LimitTask.at_ _ t w).2 _
    rw [hresult]
    split
    · exact hshows.lock _
    · exact hshows
  · intro f earlier hsuffix
    obtain hsuffix | hsuffix := List.suffix_cons_iff.1 hsuffix
    · obtain ⟨rfl, rfl⟩ := List.cons.inj hsuffix
      exact hlocks
    · exact h.windows f earlier hsuffix
  · intro f earlier hlog hlocked
    obtain ⟨rfl, -⟩ := List.cons.inj hlog
    change (LimitTask.at_ _ t w).2.keys _ = _
    rw [hresult, if_pos (hlocks.1 hlocked), LimitKeys.put_keys, if_pos rfl, hnow]

theorem redis_retryAfter (cfg : AuthLimits) (key : String) (t : Rat) (w : LimitKeys) :
    (redisStore cfg key).retryAfter t w =
      (if 0 < Volatile.ttl t (w.keys (RedisAttemptStore.lockoutKey key)) then
          some (Volatile.ttl t (w.keys (RedisAttemptStore.lockoutKey key)))
        else none, { w with now := t }) := by
  change (Option.join (some _), _) = _
  rw [Option.join_some]
  rfl

theorem redis_history (hwindow : 1 ≤ cfg.failureWindow) (hlockout : 1 ≤ cfg.lockoutSeconds)
    (h : Attempted (redisStore cfg key) {} log now w) : RedisHistory cfg key log w := by
  induction h with
  | start t =>
    refine ⟨rfl, fun f earlier h => ?_, fun _ _ h => (nomatch h)⟩
    cases List.suffix_nil.1 h
  | asked _ hle ih => exact ⟨ih.counter, ih.windows, ih.lockout⟩
  | @registered log now w t₀ t _ hle hnone hle' ih =>
    have hasked : RedisHistory cfg key log ((redisStore cfg key).retryAfter t₀ w).2 :=
      ⟨ih.counter, ih.windows, ih.lockout⟩
    apply hasked.registered hwindow hlockout
    intro hpos
    have hpos' : 0 < Volatile.ttl t₀ (w.keys (RedisAttemptStore.lockoutKey key)) :=
      Volatile.ttl_pos_mono hpos hle'
    rw [redis_retryAfter, if_pos hpos'] at hnone
    cases hnone

theorem redis_locksFor (hwindow : 1 ≤ cfg.failureWindow) (hlockout : 1 ≤ cfg.lockoutSeconds) :
    LocksFor (redisStore cfg key) {} (cfg.lockoutSeconds - 1 / 2) := by
  intro f log now w h hf t hle hlt
  have hkey := (redis_history hwindow hlockout h).lockout f log rfl hf
  have hpos : 0 < Volatile.ttl t (w.keys (RedisAttemptStore.lockoutKey key)) :=
    Volatile.ttl_pos_iff.2 ⟨_, _, hkey, by linarith⟩
  rw [redis_retryAfter, if_pos hpos]
  exact Option.some_ne_none _

theorem unlocked_length (h : ∀ f earlier, f :: earlier <:+ log → (f.locks = true ↔
      cfg.failureLimit ≤ (FixedWindow.place cfg.failureWindow f.at_ (earlier.map Failure.at_)).2))
    (a : Rat) :
    ((inStretch a cfg.failureWindow log).filter (fun f => !f.locks)).length =
      FixedWindow.early cfg.failureWindow cfg.failureLimit a (log.map Failure.at_) := by
  rw [inStretch, List.filter_filter, List.filter_reverse, List.length_reverse,
    ← List.countP_eq_length_filter]
  induction log with
  | nil => rfl
  | cons f log ih =>
    have hrest := ih fun g earlier hg => h g earlier (hg.trans (List.suffix_cons f log))
    have hf := h f log (List.suffix_refl _)
    have hlt : (!f.locks) = true ↔
        ((FixedWindow.place cfg.failureWindow f.at_ (log.map Failure.at_)).2 : Int) <
          cfg.failureLimit := by
      rw [Bool.not_eq_true', ← Bool.not_eq_true, hf, not_le]
    rw [List.countP_cons, hrest, List.map_cons, FixedWindow.early]
    by_cases hin : a ≤ f.at_ ∧ f.at_ < a + cfg.failureWindow ∧
        ((FixedWindow.place cfg.failureWindow f.at_ (log.map Failure.at_)).2 : Int) <
          cfg.failureLimit
    · rw [if_pos hin, if_pos]
      rw [Bool.and_eq_true, hlt, decide_eq_true_eq]
      exact ⟨hin.2.2, hin.1, hin.2.1⟩
    · rw [if_neg hin, if_neg]
      · rfl
      · rw [Bool.and_eq_true, hlt, decide_eq_true_eq]
        exact fun hand => hin ⟨hand.2.1, hand.2.2, hand.1⟩

end Redis

/-- What both stores do on one key. -/
structure Throttled (cfg : AuthLimits) (key : String) : Prop where
  memory_bounds : ∀ log now m, Attempted (memoryStore cfg key) {} log now m → ∀ a f,
    (inStretch a cfg.failureWindow log)[(cfg.failureLimit - 1).toNat]? = some f →
    (∀ g ∈ log, g.at_ ≠ f.at_ - cfg.failureWindow) → f.locks = true
  memory_locks : LocksFor (memoryStore cfg key) {} cfg.lockoutSeconds
  redis_windows : ∀ log now w, Attempted (redisStore cfg key) {} log now w → ∀ f earlier,
    f :: earlier <:+ log → (f.locks = true ↔ cfg.failureLimit ≤
      (FixedWindow.place cfg.failureWindow f.at_ (earlier.map Failure.at_)).2)
  redis_bounds : ∀ log now w, Attempted (redisStore cfg key) {} log now w → ∀ a,
    (((inStretch a cfg.failureWindow log).filter (fun f => !f.locks)).length : Int) ≤
      2 * (cfg.failureLimit - 1)
  redis_locks : LocksFor (redisStore cfg key) {} (cfg.lockoutSeconds - 1 / 2)

/-- Both stores throttle: the one in memory over sliding windows, the one in Redis over windows
that begin with their first failure. -/
theorem attempts_throttled (cfg : AuthLimits) (key : String) (hlimit : 2 ≤ cfg.failureLimit)
    (hwindow : 1 ≤ cfg.failureWindow) (hlockout : 1 ≤ cfg.lockoutSeconds) : Throttled cfg key where
  memory_bounds log now m h a f hf hedge := by
    have hlimit' : 1 ≤ cfg.failureLimit := by omega
    obtain ⟨earlier, hsuffix, hfull⟩ := recent_of_inStretch hlimit' hf
    apply (memory_history hlimit' hwindow h).full f earlier hsuffix _ hfull
    exact fun g hg => hedge g (hsuffix.subset (List.mem_cons_of_mem f hg))
  memory_locks := memory_locksFor (by omega) hwindow
  redis_windows log now w h := (redis_history hwindow hlockout h).windows
  redis_bounds log now w h a := by
    rw [unlocked_length (redis_history hwindow hlockout h).windows]
    exact FixedWindow.early_le hlimit h.dated.sorted
  redis_locks := redis_locksFor hwindow hlockout

theorem default_attempts_throttled : Throttled ⟨5, 300, 300⟩ "ip" :=
  attempts_throttled ⟨5, 300, 300⟩ "ip" (by decide) (by decide) (by decide)

section Counterexample

/-- Attempts at some instants, the newest first: each registers a failure if it may. -/
def attempts (S : AttemptStore σ) (s₀ : σ) : List Rat → List Failure × σ
  | [] => ([], s₀)
  | t :: earlier =>
    let asked := S.retryAfter t (attempts S s₀ earlier).2
    if asked.1 = none then
      (⟨t, (S.registerFailure t asked.2).1⟩ :: (attempts S s₀ earlier).1,
        (S.registerFailure t asked.2).2)
    else ((attempts S s₀ earlier).1, asked.2)

theorem attempted_attempts (S : AttemptStore σ) (s₀ : σ) {times : List Rat}
    (h : (times ++ [0]).Pairwise (fun later earlier => earlier ≤ later)) :
    Attempted S s₀ (attempts S s₀ times).1 ((times ++ [0]).head (by simp))
      (attempts S s₀ times).2 := by
  induction times with
  | nil => exact .start 0
  | cons t earlier ih =>
    obtain ⟨hle, hrest⟩ := List.pairwise_cons.1 h
    have hbefore := ih hrest
    have hnow := hle _ (List.head_mem (by simp : earlier ++ [0] ≠ []))
    by_cases hnone : (S.retryAfter t (attempts S s₀ earlier).2).1 = none
    · rw [attempts, if_pos hnone]
      exact .registered hbefore hnow hnone (le_refl t)
    · rw [attempts, if_neg hnone]
      exact .asked hbefore hnow

theorem not_boundsGuessing {S : AttemptStore σ} {cfg : AuthLimits} (times : List Rat) (a : Rat)
    (hsorted : (times ++ [0]).Pairwise (fun later earlier => earlier ≤ later))
    (h : ((inStretch a cfg.failureWindow (attempts S s₀ times).1)[(cfg.failureLimit - 1).toNat]?.map
      Failure.locks) = some false) : ¬ BoundsGuessing S s₀ cfg := by
  intro hbounds
  obtain ⟨f, hf, hlocks⟩ := Option.map_eq_some_iff.1 h
  have hlocked := hbounds _ _ _ (attempted_attempts S s₀ hsorted) a f hf
  rw [hlocks] at hlocked
  cases hlocked

theorem not_locksFor {S : AttemptStore σ} {seconds : Rat} (t u : Rat) (earlier : List Rat)
    (hsorted : ((t :: earlier) ++ [0]).Pairwise (fun later earlier => earlier ≤ later))
    (hlocks : (attempts S s₀ (t :: earlier)).1.head?.map (fun f => (f.at_, f.locks)) =
      some (t, true))
    (hle : t ≤ u) (hlt : u < t + seconds)
    (hnone : (S.retryAfter u (attempts S s₀ (t :: earlier)).2).1 = none) :
    ¬ LocksFor S s₀ seconds := by
  intro hfor
  obtain ⟨f, hf, hfields⟩ := Option.map_eq_some_iff.1 hlocks
  obtain ⟨rfl, hlocked⟩ := Prod.mk.inj hfields
  obtain ⟨log, hlog⟩ := List.head?_eq_some_iff.1 hf
  have hattempted := attempted_attempts S s₀ hsorted
  rw [hlog] at hattempted
  exact hfor f log _ _ hattempted hlocked u hle hlt hnone

/-- Three failures within 10 seconds, and a minute of lockout. -/
def strictLimits : AuthLimits := ⟨3, 10, 60⟩

/-- Failures at 0, 9, 11 and 12 in Redis, of which the last three fall in ten seconds; failures at 0
and three at 10 in memory; and a lockout in Redis that began at 2, asked for at 61.75. -/
theorem throttling_leaks :
    ¬ BoundsGuessing (redisStore strictLimits "ip") {} strictLimits ∧
      ¬ BoundsGuessing (memoryStore strictLimits "ip") {} strictLimits ∧
      ¬ LocksFor (redisStore strictLimits "ip") {} strictLimits.lockoutSeconds := by
  refine ⟨?_, ?_, ?_⟩
  · apply not_boundsGuessing [12, 11, 9, 0] 9
    · decide +kernel
    · decide +kernel
  · apply not_boundsGuessing [10, 10, 10, 0] 10
    · decide +kernel
    · decide +kernel
  · apply not_locksFor 2 (247 / 4) [1, 0]
    · decide +kernel
    · decide +kernel
    · decide +kernel
    · decide +kernel
    · decide +kernel

end Counterexample

end CentralOps
