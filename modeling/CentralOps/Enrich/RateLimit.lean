import Mathlib.Data.Rat.Floor
import CentralOps.Lib.TokenLevel

namespace CentralOps
set_option autoImplicit true

open TokenLevel

/-- A bucket after `__post_init__`, which raises its size to one token and its rate to zero. -/
structure TokenBucket where
  capacity : Rat
  rate : Rat
  tokens : Rat
  updatedAt : Rat
  blockedUntil : Rat := 0
  capacity_ge : 1 ≤ capacity
  rate_nonneg : 0 ≤ rate

namespace TokenBucket

/-- A new bucket, at a reading of the clock. -/
def create (capacity rate now : Rat) : TokenBucket where
  capacity := max capacity 1
  rate := max rate 0
  tokens := max capacity 1
  updatedAt := now
  capacity_ge := le_max_right _ _
  rate_nonneg := le_max_right _ _

def refill (b : TokenBucket) (now : Rat) : TokenBucket :=
  { b with
    tokens := min b.capacity (b.tokens + max (now - b.updatedAt) 0 * b.rate)
    updatedAt := now }

def tryAcquire (b : TokenBucket) (now : Rat) (n : Rat := 1) : TokenBucket × Bool :=
  if now < b.blockedUntil then (b, false)
  else
    let b := b.refill now
    if n ≤ b.tokens then ({ b with tokens := b.tokens - n }, true) else (b, false)

def blockFor (b : TokenBucket) (seconds now : Rat) : TokenBucket :=
  { b with blockedUntil := max b.blockedUntil (now + max seconds 0) }

end TokenBucket

structure QuotaBuckets where
  minute : TokenBucket
  day : Option TokenBucket

namespace QuotaBuckets

def giveBack (day : TokenBucket) : TokenBucket :=
  { day with tokens := min day.capacity (day.tokens + 1) }

/-- Each bucket reads the clock for itself, the day first. -/
def tryAcquire (q : QuotaBuckets) (dayNow minuteNow : Rat) : QuotaBuckets × Bool :=
  match q.day with
  | none =>
    let (minute, ok) := q.minute.tryAcquire minuteNow
    (⟨minute, none⟩, ok)
  | some day =>
    match day.tryAcquire dayNow with
    | (day, false) => (⟨q.minute, some day⟩, false)
    | (day, true) =>
      match q.minute.tryAcquire minuteNow with
      | (minute, false) => (⟨minute, some (giveBack day)⟩, false)
      | (minute, true) => (⟨minute, some day⟩, true)

def blockFor (q : QuotaBuckets) (seconds now : Rat) : QuotaBuckets :=
  { q with minute := q.minute.blockFor seconds now }

end QuotaBuckets

/-- A call, with what the clock says in it. A reading that a call does not need is the one before
it. -/
inductive QuotaCall where
  | tryAcquire (dayNow minuteNow : Rat)
  | blockFor (seconds now : Rat)
  deriving DecidableEq

namespace QuotaCall

/-- The reading of the day bucket, or the only one. -/
def first : QuotaCall → Rat
  | .tryAcquire dayNow _ => dayNow
  | .blockFor _ now => now

/-- The reading of the minute bucket. -/
def last : QuotaCall → Rat
  | .tryAcquire _ minuteNow => minuteNow
  | .blockFor _ now => now

def perform (q : QuotaBuckets) : QuotaCall → QuotaBuckets × Bool
  | .tryAcquire dayNow minuteNow => q.tryAcquire dayNow minuteNow
  | .blockFor seconds now => (q.blockFor seconds now, false)

end QuotaCall

/-- The clock never goes back. -/
def Chronological : Rat → List QuotaCall → Prop
  | _, [] => True
  | t, c :: cs => t ≤ c.first ∧ c.first ≤ c.last ∧ Chronological c.last cs

instance decidableChronological : (t : Rat) → (cs : List QuotaCall) → Decidable (Chronological t cs)
  | _, [] => isTrue trivial
  | _, c :: cs =>
    have := decidableChronological c.last cs
    inferInstanceAs (Decidable (_ ∧ _ ∧ _))

namespace QuotaBuckets

/-- The pair after some calls. -/
def after (q : QuotaBuckets) (cs : List QuotaCall) : QuotaBuckets :=
  cs.foldl (fun q c => (c.perform q).1) q

/-- The calls that are granted. -/
def granted (q : QuotaBuckets) : List QuotaCall → List QuotaCall
  | [] => []
  | c :: cs =>
    if (c.perform q).2 then c :: granted (c.perform q).1 cs else granted (c.perform q).1 cs

end QuotaBuckets

namespace TokenBucket

def meter (b : TokenBucket) : Meter Rat :=
  ⟨b.capacity, b.rate, zero_le_one.trans b.capacity_ge, b.rate_nonneg⟩

def level (b : TokenBucket) : Level Rat := ⟨b.tokens, b.updatedAt⟩

/-- What a call of `try_acquire` at some time comes to. -/
def use (b : TokenBucket) (now : Rat) : Use :=
  if now < b.blockedUntil then .idle
  else if 1 ≤ (b.refill now).tokens then .draw else .refill

theorem draw_of_use {b : TokenBucket} (h : b.use now = .draw) : 1 ≤ b.meter.level b.level now := by
  rw [use] at h
  by_cases hblocked : now < b.blockedUntil
  · rw [if_pos hblocked] at h
    cases h
  · by_cases hone : 1 ≤ (b.refill now).tokens
    · exact hone
    · rw [if_neg hblocked, if_neg hone] at h
      cases h

/-- A bucket as its use leaves it. -/
def used (b : TokenBucket) (now : Rat) (u : Use) : TokenBucket :=
  { b with
    tokens := (b.meter.next b.level now u).tokens
    updatedAt := (b.meter.next b.level now u).since }

@[simp] theorem meter_used (b : TokenBucket) (now : Rat) (u : Use) :
    (b.used now u).meter = b.meter := rfl

@[simp] theorem level_used (b : TokenBucket) (now : Rat) (u : Use) :
    (b.used now u).level = b.meter.next b.level now u := rfl

theorem tryAcquire_eq (b : TokenBucket) (now : Rat) :
    b.tryAcquire now = (b.used now (b.use now), decide (b.use now = .draw)) := by
  rw [tryAcquire, use]
  by_cases hblocked : now < b.blockedUntil
  · rw [if_pos hblocked, if_pos hblocked]
    rfl
  · rw [if_neg hblocked, if_neg hblocked]
    by_cases hone : 1 ≤ (b.refill now).tokens
    · rw [if_pos hone, if_pos hone]
      rfl
    · rw [if_neg hone, if_neg hone]
      rfl

end TokenBucket

namespace QuotaBuckets

theorem giveBack_used (day : TokenBucket) (now : Rat) :
    giveBack (day.used now .draw) = day.used now .refill := by
  have hfits : min day.capacity (day.meter.level day.level now) = day.meter.level day.level now :=
    min_eq_right (Meter.level_le_capacity day.meter day.level now)
  simp only [giveBack, TokenBucket.used, Meter.next, sub_add_cancel, hfits]

def minuteUse (q : QuotaBuckets) : QuotaCall → Use
  | .tryAcquire dayNow minuteNow =>
    match q.day with
    | none => q.minute.use minuteNow
    | some day => if day.use dayNow = .draw then q.minute.use minuteNow else .idle
  | .blockFor _ _ => .idle

def dayUse (q : QuotaBuckets) (day : TokenBucket) : QuotaCall → Use
  | .tryAcquire dayNow minuteNow =>
    if day.use dayNow = .draw ∧ q.minute.use minuteNow ≠ .draw then .refill else day.use dayNow
  | .blockFor _ _ => .idle

/-- The minute bucket as the call leaves its horizon. -/
def blocked (minute : TokenBucket) : QuotaCall → TokenBucket
  | .tryAcquire _ _ => minute
  | .blockFor seconds now => minute.blockFor seconds now

theorem perform_eq (q : QuotaBuckets) (c : QuotaCall) :
    c.perform q =
      (⟨(blocked q.minute c).used c.last (q.minuteUse c),
          q.day.map fun day => day.used c.first (q.dayUse day c)⟩,
        decide (q.minuteUse c = .draw)) := by
  cases c with
  | blockFor seconds now =>
    obtain ⟨minute, day⟩ := q
    cases day <;> rfl
  | tryAcquire dayNow minuteNow =>
    obtain ⟨minute, day⟩ := q
    rw [QuotaCall.perform, tryAcquire]
    cases day with
    | none =>
      rw [TokenBucket.tryAcquire_eq]
      rfl
    | some day =>
      simp only [TokenBucket.tryAcquire_eq]
      by_cases hday : day.use dayNow = .draw
      · by_cases hminute : minute.use minuteNow = .draw
        · simp [hday, hminute, minuteUse, dayUse, blocked, QuotaCall.last, QuotaCall.first]
        · simp [hday, hminute, minuteUse, dayUse, blocked, QuotaCall.last, QuotaCall.first,
            giveBack_used]
      · simp [hday, minuteUse, dayUse, blocked, QuotaCall.last, QuotaCall.first]
        rfl

theorem dayUse_eq_draw_iff {q : QuotaBuckets} {day : TokenBucket} (hday : q.day = some day) (c : QuotaCall) :
    q.dayUse day c = .draw ↔ q.minuteUse c = .draw := by
  cases c with
  | blockFor seconds now => exact Iff.rfl
  | tryAcquire dayNow minuteNow =>
    rw [dayUse, minuteUse, hday]
    by_cases hd : day.use dayNow = .draw <;> by_cases hm : q.minute.use minuteNow = .draw <;>
      simp [hd, hm]

theorem draw_of_minuteUse {q : QuotaBuckets} {c : QuotaCall}
    (h : q.minuteUse c = .draw) : 1 ≤ q.minute.meter.level q.minute.level c.last := by
  cases c with
  | blockFor seconds now => cases h
  | tryAcquire dayNow minuteNow =>
    rw [minuteUse] at h
    split at h
    · exact TokenBucket.draw_of_use h
    · split at h
      · exact TokenBucket.draw_of_use h
      · cases h

theorem draw_of_dayUse {q : QuotaBuckets} {day : TokenBucket} {c : QuotaCall}
    (h : q.dayUse day c = .draw) : 1 ≤ day.meter.level day.level c.first := by
  cases c with
  | blockFor seconds now => cases h
  | tryAcquire dayNow minuteNow =>
    rw [dayUse] at h
    split at h
    · cases h
    · exact TokenBucket.draw_of_use h

end QuotaBuckets

/-- A run as one bucket sees it: its uses lead from the one state to the other, and its draws are
the granted calls by its own readings. -/
def Traces (reading : QuotaCall → Rat) (t : Rat) (b b' : TokenBucket) (gs : List QuotaCall) : Prop :=
  ∃ us, b.meter.Follows t b.level us ∧ b'.meter = b.meter ∧
    b'.level = us.foldl (fun s e => b.meter.next s e.1 e.2) b.level ∧
    ∀ x y, Meter.draws x y us = gs.countP fun c => x ≤ reading c ∧ reading c ≤ y

theorem Traces.refl (reading : QuotaCall → Rat) (t : Rat) (b : TokenBucket) :
    Traces reading t b b [] :=
  ⟨[], trivial, rfl, rfl, fun _ _ => rfl⟩

theorem Traces.cons {reading : QuotaCall → Rat} {b b₁ b' : TokenBucket} {c : QuotaCall} {u : Use}
    (ht : t ≤ reading c) (hdraw : u = .draw → 1 ≤ b.meter.level b.level (reading c))
    (hmeter : b₁.meter = b.meter) (hlevel : b₁.level = b.meter.next b.level (reading c) u)
    (hle : reading c ≤ t') (h : Traces reading t' b₁ b' gs) :
    Traces reading t b b' (if u = .draw then c :: gs else gs) := by
  obtain ⟨us, hfollows, hmeter', hlevel', hcount⟩ := h
  rw [hmeter, hlevel] at hfollows
  refine ⟨(reading c, u) :: us, ⟨ht, hdraw, hfollows.earlier hle⟩, hmeter'.trans hmeter, ?_, ?_⟩
  · rw [hlevel', hmeter, hlevel]
    rfl
  · intro x y
    have hrest := hcount x y
    rw [Meter.draws] at hrest ⊢
    by_cases hu : u = .draw
    · rw [if_pos hu, List.countP_cons, List.countP_cons, hrest, hu]
      simp
    · rw [if_neg hu, List.countP_cons_of_neg (by simp [hu]), hrest]

namespace QuotaBuckets

theorem meter_blocked (minute : TokenBucket) (c : QuotaCall) :
    (blocked minute c).meter = minute.meter := by
  cases c <;> rfl

theorem level_blocked (minute : TokenBucket) (c : QuotaCall) :
    (blocked minute c).level = minute.level := by
  cases c <;> rfl

theorem granted_cons (q : QuotaBuckets) (c : QuotaCall) (cs : List QuotaCall) :
    q.granted (c :: cs) =
      if q.minuteUse c = .draw then c :: (c.perform q).1.granted cs
      else (c.perform q).1.granted cs := by
  rw [granted, perform_eq]
  simp only [decide_eq_true_eq]

theorem traces_minute {cs : List QuotaCall} (h : Chronological t cs) (q : QuotaBuckets) :
    Traces QuotaCall.last t q.minute (q.after cs).minute (q.granted cs) := by
  induction cs generalizing t q with
  | nil => exact .refl _ _ _
  | cons c cs ih =>
    obtain ⟨hfirst, hlast, hrest⟩ := h
    rw [granted_cons]
    apply Traces.cons (hfirst.trans hlast) draw_of_minuteUse _ _ le_rfl
      (ih hrest (c.perform q).1)
    · rw [perform_eq, TokenBucket.meter_used, meter_blocked]
    · rw [perform_eq, TokenBucket.level_used, meter_blocked, level_blocked]

theorem traces_day {cs : List QuotaCall} (h : Chronological t cs) {q : QuotaBuckets}
    {day : TokenBucket} (hday : q.day = some day) :
    ∃ day', (q.after cs).day = some day' ∧ Traces QuotaCall.first t day day' (q.granted cs) := by
  induction cs generalizing t q day with
  | nil => exact ⟨day, hday, .refl _ _ _⟩
  | cons c cs ih =>
    obtain ⟨hfirst, hlast, hrest⟩ := h
    have hnext : (c.perform q).1.day = some (day.used c.first (q.dayUse day c)) := by
      rw [perform_eq, hday]
      rfl
    obtain ⟨day', hafter, htraces⟩ := ih hrest hnext
    refine ⟨day', hafter, ?_⟩
    rw [granted_cons, ← if_congr (dayUse_eq_draw_iff hday c) rfl rfl]
    exact Traces.cons hfirst draw_of_dayUse (TokenBucket.meter_used _ _ _)
      (TokenBucket.level_used _ _ _) hlast htraces

theorem day_after_eq_none {q : QuotaBuckets} (h : q.day = none) (cs : List QuotaCall) :
    (q.after cs).day = none := by
  induction cs generalizing q with
  | nil => exact h
  | cons c cs ih =>
    apply ih (q := (c.perform q).1)
    rw [perform_eq, h]
    rfl

/-- New buckets, made before a time. -/
def Fresh (q : QuotaBuckets) (t : Rat) : Prop :=
  (∃ capacity rate now, now ≤ t ∧ q.minute = .create capacity rate now) ∧
    ∀ day, q.day = some day → ∃ capacity rate now, now ≤ t ∧ day = .create capacity rate now

/-- No bucket has less than nothing or more than fits. -/
def Within (q : QuotaBuckets) : Prop :=
  (0 ≤ q.minute.tokens ∧ q.minute.tokens ≤ q.minute.capacity) ∧
    ∀ day, q.day = some day → 0 ≤ day.tokens ∧ day.tokens ≤ day.capacity

end QuotaBuckets

theorem within_create (capacity rate now : Rat) :
    (TokenBucket.create capacity rate now).meter.Within
      (TokenBucket.create capacity rate now).level :=
  ⟨zero_le_one.trans (le_max_right capacity 1), le_rfl⟩

theorem Traces.within {reading : QuotaCall → Rat} {b b' : TokenBucket}
    (h : Traces reading t b b' gs) (hb : b.meter.Within b.level) :
    0 ≤ b'.tokens ∧ b'.tokens ≤ b'.capacity := by
  obtain ⟨us, hfollows, hmeter, hlevel, _⟩ := h
  have hwithin : b'.meter.Within b'.level := by
    rw [hmeter, hlevel]
    exact hfollows.within hb
  exact hwithin

theorem Traces.bounded {reading : QuotaCall → Rat} {b b' : TokenBucket}
    (h : Traces reading t b b' gs) (hb : b.meter.Within b.level) (hnow : b.updatedAt ≤ t)
    (hxy : x ≤ y) :
    ((gs.countP fun c => x ≤ reading c ∧ reading c ≤ y : Nat) : Rat) ≤
      b.capacity + b.rate * (y - x) := by
  obtain ⟨us, hfollows, _, _, hcount⟩ := h
  rw [← hcount x y]
  exact Meter.draws_le hfollows hb hnow hxy

theorem Chronological.within_last {cs : List QuotaCall} {c : QuotaCall}
    (h : Chronological t (cs ++ [c])) : c.first ≤ c.last := by
  induction cs generalizing t with
  | nil => exact h.2.1
  | cons c' cs ih => exact ih h.2.2

namespace QuotaBuckets

/-- Both buckets were last refilled no later than a time. -/
def UpTo (q : QuotaBuckets) (t : Rat) : Prop :=
  q.minute.updatedAt ≤ t ∧ ∀ day, q.day = some day → day.updatedAt ≤ t

theorem upTo_perform {q : QuotaBuckets} (hq : q.UpTo t) {c : QuotaCall} (hfirst : t ≤ c.first)
    (hlast : c.first ≤ c.last) : (c.perform q).1.UpTo c.last := by
  rw [perform_eq]
  constructor
  · apply Meter.next_since_le _ (hfirst.trans hlast)
    rw [level_blocked]
    exact hq.1
  · intro day' hday'
    obtain ⟨day, hday, rfl⟩ := Option.map_eq_some_iff.1 hday'
    exact (Meter.next_since_le (hq.2 day hday) hfirst).trans hlast

theorem upTo_after {q : QuotaBuckets} (hq : q.UpTo t) {cs : List QuotaCall} {c : QuotaCall}
    (h : Chronological t (cs ++ [c])) : (q.after cs).UpTo c.first := by
  induction cs generalizing t q with
  | nil => exact ⟨hq.1.trans h.1, fun day hday => (hq.2 day hday).trans h.1⟩
  | cons c' cs ih =>
    obtain ⟨hfirst, hlast, hrest⟩ := h
    exact ih (upTo_perform hq hfirst hlast) hrest

theorem blockedUntil_le_perform (q : QuotaBuckets) (c : QuotaCall) :
    q.minute.blockedUntil ≤ (c.perform q).1.minute.blockedUntil := by
  rw [perform_eq]
  cases c with
  | tryAcquire dayNow minuteNow => exact le_rfl
  | blockFor seconds now => exact le_max_left _ _

theorem blockedUntil_le_after (q : QuotaBuckets) (cs : List QuotaCall) :
    q.minute.blockedUntil ≤ (q.after cs).minute.blockedUntil := by
  induction cs generalizing q with
  | nil => exact le_rfl
  | cons c cs ih => exact (blockedUntil_le_perform q c).trans (ih (c.perform q).1)

/-- A pending `Retry-After` refuses every call. -/
theorem refused_of_blocked {q : QuotaBuckets} {minuteNow : Rat}
    (h : minuteNow < q.minute.blockedUntil) (dayNow : Rat) :
    (q.tryAcquire dayNow minuteNow).2 = false := by
  have huse : q.minute.use minuteNow = .idle := if_pos h
  have hcall := perform_eq q (.tryAcquire dayNow minuteNow)
  rw [QuotaCall.perform, minuteUse, huse] at hcall
  rw [hcall]
  apply decide_eq_false
  intro hdraw
  split at hdraw
  · cases hdraw
  · split at hdraw <;> cases hdraw

theorem refused_after_blockFor (q : QuotaBuckets) (before middle : List QuotaCall)
    (seconds now dayNow minuteNow : Rat) (h : minuteNow < now + seconds) :
    ((q.after (before ++ .blockFor seconds now :: middle)).tryAcquire dayNow minuteNow).2 =
      false := by
  apply refused_of_blocked
  rw [after, List.foldl_append, List.foldl_cons]
  refine lt_of_lt_of_le h (le_trans ?_ (blockedUntil_le_after _ middle))
  exact (add_le_add_right (le_max_left seconds 0) now).trans (le_max_right _ _)

end QuotaBuckets

/-- A bucket is as it was or as a refill leaves it, and a refill at any later time finds what it
finds after a refill now. -/
def AsRefilled (b b' : TokenBucket) (now : Rat) : Prop :=
  (b' = b ∨ b' = b.refill now) ∧
    ∀ later, now ≤ later → (b'.refill later).tokens = ((b.refill now).refill later).tokens

theorem asRefilled_used {b : TokenBucket} (hnow : b.updatedAt ≤ now) {u : Use} (hu : u ≠ .draw) :
    AsRefilled b (b.used now u) now := by
  cases u with
  | idle =>
    refine ⟨.inl rfl, ?_⟩
    intro later hlater
    exact (Meter.level_refill b.meter b.level hnow hlater).symm
  | refill => exact ⟨.inr rfl, fun _ _ => rfl⟩
  | draw => exact absurd rfl hu

namespace QuotaBuckets

theorem asRefilled_of_refused {q : QuotaBuckets} {dayNow minuteNow : Rat} (hq : q.UpTo dayNow)
    (hle : dayNow ≤ minuteNow) (hrefused : (q.tryAcquire dayNow minuteNow).2 = false) :
    AsRefilled q.minute (q.tryAcquire dayNow minuteNow).1.minute minuteNow ∧
      ∀ day, q.day = some day → ∃ day', (q.tryAcquire dayNow minuteNow).1.day = some day' ∧
        AsRefilled day day' dayNow := by
  have hcall := perform_eq q (.tryAcquire dayNow minuteNow)
  rw [QuotaCall.perform] at hcall
  rw [hcall] at hrefused ⊢
  have hminute := of_decide_eq_false hrefused
  constructor
  · exact asRefilled_used (hq.1.trans hle) hminute
  · intro day hday
    refine ⟨_, congrArg (Option.map _) hday, ?_⟩
    exact asRefilled_used (hq.2 day hday) fun h => hminute ((dayUse_eq_draw_iff hday _).1 h)

theorem Fresh.within {q : QuotaBuckets} (hq : q.Fresh t) :
    q.minute.meter.Within q.minute.level ∧
      ∀ day, q.day = some day → day.meter.Within day.level := by
  constructor
  · obtain ⟨capacity, rate, now, _, hminute⟩ := hq.1
    rw [hminute]
    exact within_create capacity rate now
  · intro day hday
    obtain ⟨capacity, rate, now, _, rfl⟩ := hq.2 day hday
    exact within_create capacity rate now

theorem Fresh.upTo {q : QuotaBuckets} (hq : q.Fresh t) : q.UpTo t := by
  constructor
  · obtain ⟨capacity, rate, now, hnow, hminute⟩ := hq.1
    rw [hminute]
    exact hnow
  · intro day hday
    obtain ⟨capacity, rate, now, hnow, rfl⟩ := hq.2 day hday
    exact hnow

theorem within_after {q : QuotaBuckets} (hq : q.Fresh t) {cs : List QuotaCall}
    (hcs : Chronological t cs) : (q.after cs).Within := by
  constructor
  · exact (traces_minute hcs q).within hq.within.1
  · intro day' hday'
    cases hday : q.day with
    | none =>
      rw [day_after_eq_none hday cs] at hday'
      cases hday'
    | some day =>
      obtain ⟨day'', hafter, htraces⟩ := traces_day hcs hday
      obtain rfl : day'' = day' := Option.some.inj (hafter.symm.trans hday')
      exact htraces.within (hq.within.2 day hday)

end QuotaBuckets

theorem quota_never_exceeded (q : QuotaBuckets) (t : Rat) (cs : List QuotaCall) (hq : q.Fresh t)
    (hcs : Chronological t cs) :
    (q.after cs).Within ∧
    (∀ x y, x ≤ y →
      (((q.granted cs).countP fun c => x ≤ c.last ∧ c.last ≤ y : Nat) : Rat) ≤
        q.minute.capacity + q.minute.rate * (y - x)) ∧
    (∀ x y, x ≤ y → ∀ day, q.day = some day →
      (((q.granted cs).countP fun c => x ≤ c.first ∧ c.first ≤ y : Nat) : Rat) ≤
        day.capacity + day.rate * (y - x)) ∧
    (∀ before middle seconds now dayNow minuteNow,
      cs = before ++ .blockFor seconds now :: middle → minuteNow < now + seconds →
        ((q.after cs).tryAcquire dayNow minuteNow).2 = false) ∧
    ∀ dayNow minuteNow, Chronological t (cs ++ [.tryAcquire dayNow minuteNow]) →
      ((q.after cs).tryAcquire dayNow minuteNow).2 = false →
        AsRefilled (q.after cs).minute ((q.after cs).tryAcquire dayNow minuteNow).1.minute
          minuteNow ∧
        ∀ day, (q.after cs).day = some day →
          ∃ day', ((q.after cs).tryAcquire dayNow minuteNow).1.day = some day' ∧
            AsRefilled day day' dayNow := by
  refine ⟨QuotaBuckets.within_after hq hcs, ?_, ?_, ?_, ?_⟩
  · intro x y hxy
    exact (QuotaBuckets.traces_minute hcs q).bounded hq.within.1 hq.upTo.1 hxy
  · intro x y hxy day hday
    obtain ⟨_, _, htraces⟩ := QuotaBuckets.traces_day hcs hday
    exact htraces.bounded (hq.within.2 day hday) (hq.upTo.2 day hday) hxy
  · intro before middle seconds now dayNow minuteNow heq hearly
    rw [heq]
    exact QuotaBuckets.refused_after_blockFor q before middle seconds now dayNow minuteNow hearly
  · intro dayNow minuteNow hnext hrefused
    exact QuotaBuckets.asRefilled_of_refused (QuotaBuckets.upTo_after hq.upTo hnext)
      hnext.within_last hrefused

/-- Four calls a minute and five hundred a day. -/
def publicQuota : QuotaBuckets := ⟨.create 4 (4 / 60) 0, some (.create 500 (500 / 86400) 0)⟩

theorem publicQuota_fresh : publicQuota.Fresh 0 := by
  constructor
  · exact ⟨4, 4 / 60, 0, le_rfl, rfl⟩
  · intro day hday
    exact ⟨500, 500 / 86400, 0, le_rfl, (Option.some.inj hday).symm⟩

/-- Four calls, a `Retry-After` and a call before it has passed. -/
def burst : List QuotaCall := List.replicate 4 (.tryAcquire 0 0) ++ [.blockFor 60 0]

theorem quota_never_exceeded_burst :
    ((publicQuota.after burst).tryAcquire 30 30).2 = false :=
  (quota_never_exceeded publicQuota 0 burst publicQuota_fresh (by decide +kernel)).2.2.2.1
    (List.replicate 4 (.tryAcquire 0 0)) [] 60 0 30 30 rfl (by decide +kernel)

/-- A call refused because of a `Retry-After` leaves the minute as it was: no token, where a refill
would have found two. -/
theorem blocked_not_refilled :
    publicQuota.Fresh 0 ∧ Chronological 0 (burst ++ [.tryAcquire 30 30]) ∧
      ((publicQuota.after burst).tryAcquire 30 30).2 = false ∧
      ((publicQuota.after burst).tryAcquire 30 30).1.minute.tokens = 0 ∧
      ((publicQuota.after burst).minute.refill 30).tokens = 2 :=
  ⟨publicQuota_fresh, by decide +kernel⟩

end CentralOps
