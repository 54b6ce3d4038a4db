import CentralOps.Limits.Admission
import CentralOps.Lib.Capped
import CentralOps.Lib.Rely
import Mathlib.Data.Rat.Floor
import Mathlib.Tactic.Linarith

namespace CentralOps
set_option autoImplicit true

/-- Where `acquire` and `backoff` await, with their clocks and tokens. `leave` is the end of an
`acquire`, which returns or raises; a run is not followed `beyond` the polls it was given. -/
inductive RateAsk where
  | ttl (key : String)
  | loopTime
  | wake (deadline : Rat)
  | monotonic
  | time
  | uuid
  | eval (key : String) (now window : Nat) (limit : Int) (token : String)
  | leave (returned : Bool)
  | beyond
  | setBackoff (key : String) (seconds : Nat)

abbrev RateReply : RateAsk → Type
  | .ttl _ => Int
  | .loopTime => Nat
  | .wake _ => Unit
  | .monotonic => Rat
  | .time => Nat
  | .uuid => String
  | .eval .. => Bool
  | .leave _ => Unit
  | .beyond => Unit
  | .setBackoff .. => Unit

abbrev RateTask := Dialog RateAsk RateReply

structure RateLimiter where
  limits : Dict String (Dict String Int)
  maxWaitSeconds : Rat := 30

/-- `_WINDOW_MS`; a name that is not in it has no window. -/
def windowMs (name : String) : Nat :=
  match name with
  | "per_second" => 1000
  | "per_minute" => 60000
  | "per_hour" => 3600000
  | "per_day" => 86400000
  | _ => 0

def rateKey (vendor : String) (tenant : Int) (name : String) : String :=
  "rl:" ++ vendor ++ ":" ++ toString tenant ++ ":" ++ name

def backoffKey (vendor : String) : String := "rl:backoff:" ++ vendor

/-- `asyncio.sleep`: it returns once the clock has reached its deadline. -/
def RateTask.sleep (seconds : Rat) : RateTask Unit := do
  let start ← Dialog.query RateAsk.loopTime
  Dialog.query (RateAsk.wake (start + 1000 * seconds))

namespace RateLimiter

def limitsOf (limiter : RateLimiter) (vendor : String) : List (String × Int) :=
  match limiter.limits.get? vendor with
  | some limits => limits.entries
  | none => []

def effective (p : String × Int) : Bool := decide (windowMs p.1 ≠ 0 ∧ 0 < p.2)

def windows (limiter : RateLimiter) (vendor : String) : List (String × Int) :=
  (limiter.limitsOf vendor).filter effective

def backoff (vendor : String) (retryAfter : Int) : RateTask Unit :=
  Dialog.query (RateAsk.setBackoff (backoffKey vendor) (max 1 retryAfter).toNat)

def waitIfVendorBackoff (limiter : RateLimiter) (vendor : String) : RateTask Unit := do
  let ttl ← Dialog.query (RateAsk.ttl (backoffKey vendor))
  if 0 < ttl then RateTask.sleep (min ttl limiter.maxWaitSeconds) else pure ()

def pass (vendor : String) (tenant : Int) : List (String × Int) → RateTask Bool
  | [] => pure true
  | p :: rest =>
    if windowMs p.1 = 0 ∨ p.2 ≤ 0 then pass vendor tenant rest
    else do
      let now ← Dialog.query RateAsk.time
      let token ← Dialog.query RateAsk.uuid
      if ← Dialog.query (RateAsk.eval (rateKey vendor tenant p.1) now (windowMs p.1) p.2 token) then
        pass vendor tenant rest
      else pure false

/-- The `while True`. Every finite run of it is one of enough polls. -/
def acquireLoop (limiter : RateLimiter) (tenant : Int) (vendor : String) (deadline : Rat) :
    Nat → RateTask Unit
  | 0 => Dialog.query RateAsk.beyond
  | polls + 1 => do
    if ← pass vendor tenant (limiter.limitsOf vendor) then Dialog.query (RateAsk.leave true)
    else do
      let t ← Dialog.query RateAsk.monotonic
      if deadline ≤ t then Dialog.query (RateAsk.leave false)
      else do
        RateTask.sleep (1 / 5)
        acquireLoop limiter tenant vendor deadline polls

def acquire (limiter : RateLimiter) (tenant : Int) (vendor : String) (polls : Nat) :
    RateTask Unit := do
  limiter.waitIfVendorBackoff vendor
  if limiter.limitsOf vendor = [] then Dialog.query (RateAsk.leave true)
  else do
    let start ← Dialog.query RateAsk.monotonic
    acquireLoop limiter tenant vendor (start + limiter.maxWaitSeconds) polls

end RateLimiter

inductive RateCall where
  | acquire (polls : Nat)
  | backoff (retryAfter : Int)

structure RateGrant where
  call : Nat
  key : String
  token : String
  window : Nat
  limit : Int
  reading : Nat
  time : Nat

structure RateReturn where
  call : Nat
  time : Nat
  duringBackoff : Bool

/-- Redis with its clock and the backoff of the vendor, up to the instant it lives; and what has
happened: the tokens drawn, the call that each worker is in, the entries added, newest first, and
the calls that returned. -/
structure RateWorld where
  now : Nat := 0
  store : LimitStore := fun _ => none
  backoff : Option Nat := none
  drawn : List (String × Nat) := []
  calls : Nat := 0
  inCall : Nat → Option Nat := fun _ => none
  grants : List RateGrant := []
  returned : List RateReturn := []

namespace RateWorld

/-- `TTL`, in whole seconds, rounded; -2 for a key that is not there. -/
def ttl (w : RateWorld) : Int :=
  match w.backoff with
  | some d => if w.now ≤ d then ((d - w.now + 500) / 1000 : Nat) else -2
  | none => -2

def backedOff (w : RateWorld) : Bool := w.backoff.any (fun d => decide (w.now ≤ d))

def fresh (w : RateWorld) (instant : Nat) (g : RateGrant) : Bool :=
  !w.returned.any (fun r => decide (r.call = g.call ∧ r.time + g.window ≤ instant))

def eval (i : Nat) (w : RateWorld) (key : String) (reading window : Nat) (limit : Int)
    (token : String) : Bool × RateWorld :=
  let r := admitScript w.store w.now key reading window limit token
  (r.1, { w with
    store := r.2
    grants :=
      if r.1 then ⟨(w.inCall i).getD 0, key, token, window, limit, reading, w.now⟩ :: w.grants
      else w.grants })

def leave (i : Nat) (w : RateWorld) (ok : Bool) : RateWorld :=
  { w with
    inCall := Function.update w.inCall i none
    returned :=
      if ok then ⟨(w.inCall i).getD 0, w.now, w.backedOff⟩ :: w.returned else w.returned }

/-- What the awaits of one worker return and leave, Redis being up. -/
def Answers (i : Nat) (w : RateWorld) : (q : RateAsk) → RateReply q → RateWorld → Prop
  | .ttl _, ttl, w' => ttl = w.ttl ∧
      w' = { w with calls := w.calls + 1, inCall := Function.update w.inCall i (some w.calls) }
  | .loopTime, t, w' => t = w.now ∧ w' = w
  | .wake deadline, _, w' => deadline ≤ w.now ∧ w' = w
  | .monotonic, _, w' => w' = w
  | .time, now, w' => now = w.now ∧ w' = w
  | .uuid, token, w' =>
    token ∉ w.drawn.map Prod.fst ∧ w' = { w with drawn := (token, i) :: w.drawn }
  | .eval key reading window limit token, r, w' =>
    (r, w') = w.eval i key reading window limit token
  | .leave ok, _, w' => w' = w.leave i ok
  | .beyond, _, _ => False
  | .setBackoff _ seconds, _, w' => w' = { w with backoff := some (w.now + 1000 * seconds) }

/-- A backoff that is found is over when its sleep is, none is registered while a call is past its
check, a window asked after another has admitted the call has room, and a script takes out no
entry whose call has not returned at least a window before. -/
def Orderly (maxWait : Rat) (i : Nat) (w : RateWorld) : RateAsk → Prop
  | .ttl _ => ∀ d, w.backoff = some d → w.now ≤ d →
      (d : Rat) < w.now + 1000 * min (w.ttl : Rat) maxWait
  | .setBackoff _ _ => ∀ j, w.inCall j = none
  | .eval key reading window limit _ =>
    ((∃ g ∈ w.grants, w.inCall i = some g.call) →
      ((counted w.store w.now key reading window).length : Int) < limit) ∧
    ∀ g ∈ w.grants, g.key = key → w.fresh w.now g = true →
      (g.token, g.reading) ∈ counted w.store w.now key reading window
  | _ => True

end RateWorld

section Crews
variable (limiter : RateLimiter) (tenant : Int) (vendor : String)

def RateCall.program : RateCall → RateTask Unit
  | .acquire polls => limiter.acquire tenant vendor polls
  | .backoff retryAfter => RateLimiter.backoff vendor retryAfter

abbrev RateCrew := Crew RateWorld Nat RateCall RateAsk RateReply Unit

/-- Any number of workers on one tenant and vendor. -/
def rateRules (allowed : Nat → RateWorld → RateAsk → Prop) :
    CrewRules RateWorld Nat RateCall RateAsk RateReply Unit where
  program := RateCall.program limiter tenant vendor
  starts _ _ _ := True
  answers i w q r w' := allowed i w q ∧ w.Answers i q r w'
  moves w w' := ∃ now, w.now ≤ now ∧ w' = { w with now := now }

def RateCrew.initial : RateCrew := ⟨{}, fun _ => none⟩

/-- The limiter has been exact: no window was overrun, no call returned during a backoff, and the
entries in the sets of the windows stand one to one for calls that returned or are under way. -/
structure RateExact (w : RateWorld) : Prop where
  bounded : ∀ p ∈ limiter.windows vendor, ∀ t, ((w.returned.countP
    (fun r => decide (r.time ≤ t ∧ t < r.time + windowMs p.1)) : Nat) : Int) ≤ p.2
  heeded : ∀ r ∈ w.returned, r.duringBackoff = false
  charged : ∀ p ∈ limiter.windows vendor,
    ∀ e ∈ w.store.members w.now (rateKey vendor tenant p.1), ∃ g ∈ w.grants,
      g.key = rateKey vendor tenant p.1 ∧ (g.token, g.reading) = e ∧
      ((∃ r ∈ w.returned, r.call = g.call) ∨ ∃ i, w.inCall i = some g.call)
  single : ∀ g ∈ w.grants, ∀ g' ∈ w.grants, g.key = g'.key →
    (g.call = g'.call ∨ g.token = g'.token) → g = g'
  entered : ∀ r ∈ w.returned, ∀ p ∈ limiter.windows vendor,
    ∃ g ∈ w.grants, g.call = r.call ∧ g.key = rateKey vendor tenant p.1

namespace RateWorld

/-- An entry that is not spent when another is added to its window. -/
def counts (w : RateWorld) (a b : RateGrant) : Bool :=
  decide (b.key = a.key) && w.fresh a.time b

structure Metered (w : RateWorld) : Prop where
  owners : (w.drawn.map Prod.fst).Nodup
  drawn : ∀ g ∈ w.grants, g.token ∈ w.drawn.map Prod.fst
  form : ∀ g ∈ w.grants, g.call < w.calls ∧ g.time ≤ w.now ∧ ∃ p ∈ limiter.windows vendor,
    g.key = rateKey vendor tenant p.1 ∧ g.limit = p.2 ∧ g.window = windowMs p.1
  tokens : (w.grants.map RateGrant.token).Nodup
  pairs : (w.grants.map (fun g => (g.key, g.call))).Nodup
  inCalls : ∀ i c, w.inCall i = some c → c < w.calls ∧ ∀ j, w.inCall j = some c → j = i
  returns : ∀ r ∈ w.returned, r.call < w.calls ∧ r.time ≤ w.now ∧ r.duringBackoff = false ∧
    ∀ i, w.inCall i ≠ some r.call
  distinct : (w.returned.map RateReturn.call).Nodup
  before : ∀ r ∈ w.returned, ∀ g ∈ w.grants, g.call = r.call → g.time ≤ r.time
  placed : ∀ g ∈ w.grants, (∃ r ∈ w.returned, r.call = g.call) ∨ ∃ i, w.inCall i = some g.call
  entered : ∀ r ∈ w.returned, ∀ p ∈ limiter.windows vendor,
    ∃ g ∈ w.grants, g.call = r.call ∧ g.key = rateKey vendor tenant p.1
  entries : ∀ k, ∀ e ∈ w.store.members w.now k, ∃ g ∈ w.grants,
    g.key = k ∧ (g.token, g.reading) = e
  capped : Capped RateGrant.limit w.counts w.grants

section Metered
variable {limiter tenant vendor} {w : RateWorld}

theorem counts_iff : w.counts a b = true ↔ b.key = a.key ∧ w.fresh a.time b = true := by
  rw [counts, Bool.and_eq_true, decide_eq_true_eq]

theorem fresh_iff : w.fresh t g = true ↔
    ∀ r ∈ w.returned, r.call = g.call → t < r.time + g.window := by
  rw [fresh, Bool.not_eq_true', List.any_eq_false]
  constructor
  · intro h r hr hcall
    have hnot := h r hr
    rw [decide_eq_true_eq] at hnot
    exact not_le.1 (fun hle => hnot ⟨hcall, hle⟩)
  · intro h r hr
    rw [decide_eq_true_eq]
    exact fun hle => absurd (h r hr hle.1) (not_lt.2 hle.2)

theorem rateKey_injective (h : rateKey vendor tenant a = rateKey vendor tenant b) : a = b := by
  have hl := congrArg String.toList h
  simp only [rateKey, String.toList_append] at hl
  exact String.toList_injective (List.append_cancel_left hl)

theorem enter_iff {f : Nat → Option Nat} : Function.update f i (some n) j = some c ↔
    j = i ∧ n = c ∨ j ≠ i ∧ f j = some c := by
  by_cases hji : j = i
  · subst hji
    simp [Function.update_self]
  · simp [hji]

theorem leave_iff {f : Nat → Option Nat} : Function.update f i none j = some c ↔
    j ≠ i ∧ f j = some c := by
  by_cases hji : j = i
  · subst hji
    simp [Function.update_self]
  · simp [hji]

theorem Metered.move (h : Metered limiter tenant vendor w) (hnow : w.now ≤ t) :
    Metered limiter tenant vendor { w with now := t } where
  owners := h.owners
  drawn := h.drawn
  form g hg := by
    obtain ⟨hcall, htime, hform⟩ := h.form g hg
    exact ⟨hcall, le_trans htime hnow, hform⟩
  tokens := h.tokens
  pairs := h.pairs
  inCalls := h.inCalls
  returns r hr := by
    obtain ⟨hcall, htime, hrest⟩ := h.returns r hr
    exact ⟨hcall, le_trans htime hnow, hrest⟩
  distinct := h.distinct
  before := h.before
  placed := h.placed
  entered := h.entered
  entries k e he := h.entries k e (SortedStore.members_anti hnow he)
  capped := h.capped

theorem Metered.draw (h : Metered limiter tenant vendor w) (htoken : token ∉ w.drawn.map Prod.fst)
    (i : Nat) : Metered limiter tenant vendor { w with drawn := (token, i) :: w.drawn } where
  owners := List.nodup_cons.2 ⟨htoken, h.owners⟩
  drawn g hg := List.mem_cons_of_mem _ (h.drawn g hg)
  form := h.form
  tokens := h.tokens
  pairs := h.pairs
  inCalls := h.inCalls
  returns := h.returns
  distinct := h.distinct
  before := h.before
  placed := h.placed
  entered := h.entered
  entries := h.entries
  capped := h.capped

theorem Metered.setBackoff (h : Metered limiter tenant vendor w) (d : Nat) :
    Metered limiter tenant vendor { w with backoff := some d } where
  owners := h.owners
  drawn := h.drawn
  form := h.form
  tokens := h.tokens
  pairs := h.pairs
  inCalls := h.inCalls
  returns := h.returns
  distinct := h.distinct
  before := h.before
  placed := h.placed
  entered := h.entered
  entries := h.entries
  capped := h.capped

theorem Metered.begin (h : Metered limiter tenant vendor w) (hidle : w.inCall i = none) :
    Metered limiter tenant vendor
      { w with calls := w.calls + 1, inCall := Function.update w.inCall i (some w.calls) } where
  owners := h.owners
  drawn := h.drawn
  form g hg := by
    obtain ⟨hcall, hrest⟩ := h.form g hg
    exact ⟨Nat.lt_succ_of_lt hcall, hrest⟩
  tokens := h.tokens
  pairs := h.pairs
  inCalls j c hj := by
    obtain ⟨rfl, rfl⟩ | ⟨hji, hj⟩ := enter_iff.1 hj
    · refine ⟨Nat.lt_succ_self _, fun j' hj' => ?_⟩
      obtain ⟨he, -⟩ | ⟨-, hj'⟩ := enter_iff.1 hj'
      · exact he
      · exact absurd (h.inCalls j' _ hj').1 (Nat.lt_irrefl _)
    · obtain ⟨hlt, huniq⟩ := h.inCalls j c hj
      refine ⟨Nat.lt_succ_of_lt hlt, fun j' hj' => ?_⟩
      obtain ⟨-, rfl⟩ | ⟨-, hj'⟩ := enter_iff.1 hj'
      · exact absurd hlt (Nat.lt_irrefl _)
      · exact huniq j' hj'
  returns r hr := by
    obtain ⟨hcall, htime, hcalm, hnot⟩ := h.returns r hr
    refine ⟨Nat.lt_succ_of_lt hcall, htime, hcalm, fun j hj => ?_⟩
    obtain ⟨-, he⟩ | ⟨-, hj⟩ := enter_iff.1 hj
    · exact absurd hcall (he ▸ Nat.lt_irrefl _)
    · exact hnot j hj
  distinct := h.distinct
  before := h.before
  placed g hg := by
    obtain hreturned | ⟨j, hj⟩ := h.placed g hg
    · exact .inl hreturned
    · have hji : j ≠ i := by
        rintro rfl
        rw [hidle] at hj
        cases hj
      exact .inr ⟨j, enter_iff.2 (.inr ⟨hji, hj⟩)⟩
  entered := h.entered
  entries := h.entries
  capped := h.capped

theorem mem_leave {w : RateWorld} (hcall : w.inCall i = some c) (h : r ∈ (w.leave i ok).returned) :
    ok = true ∧ r = ⟨c, w.now, w.backedOff⟩ ∨ r ∈ w.returned := by
  cases ok with
  | false => exact .inr h
  | true =>
    obtain rfl | h := List.mem_cons.1 h
    · rw [hcall]
      exact .inl ⟨rfl, rfl⟩
    · exact .inr h

theorem mem_leave_of_mem {w : RateWorld} (h : r ∈ w.returned) : r ∈ (w.leave i ok).returned := by
  cases ok with
  | false => exact h
  | true => exact List.mem_cons_of_mem _ h

/-- A call ends, having entered every window or none. -/
theorem Metered.leave (h : Metered limiter tenant vendor w) (hcall : w.inCall i = some c)
    (hcalm : w.backedOff = false) (ok : Bool)
    (hfull : ok = true → ∀ p ∈ limiter.windows vendor,
      ∃ g ∈ w.grants, g.call = c ∧ g.key = rateKey vendor tenant p.1)
    (hnone : ok = false → ∀ g ∈ w.grants, g.call ≠ c) :
    Metered limiter tenant vendor (w.leave i ok) where
  owners := h.owners
  drawn := h.drawn
  form := h.form
  tokens := h.tokens
  pairs := h.pairs
  inCalls j c' hj := by
    obtain ⟨-, hj⟩ := leave_iff.1 hj
    obtain ⟨hlt, huniq⟩ := h.inCalls j c' hj
    exact ⟨hlt, fun j' hj' => huniq j' (leave_iff.1 hj').2⟩
  returns r hr := by
    obtain ⟨-, rfl⟩ | hr := mem_leave hcall hr
    · refine ⟨(h.inCalls i c hcall).1, le_refl _, hcalm, fun j hj => ?_⟩
      obtain ⟨hji, hj⟩ := leave_iff.1 hj
      exact hji ((h.inCalls i c hcall).2 j hj)
    · obtain ⟨hlt, htime, hr', hnot⟩ := h.returns r hr
      exact ⟨hlt, htime, hr', fun j hj => hnot j (leave_iff.1 hj).2⟩
  distinct := by
    cases ok with
    | false => exact h.distinct
    | true =>
      refine List.nodup_cons.2 ⟨fun hin => ?_, h.distinct⟩
      obtain ⟨r, hr, hsame⟩ := List.mem_map.1 hin
      rw [hcall, Option.getD_some] at hsame
      exact (h.returns r hr).2.2.2 i (hsame ▸ hcall)
  before r hr g hg hsame := by
    obtain ⟨-, rfl⟩ | hr := mem_leave hcall hr
    · exact (h.form g hg).2.1
    · exact h.before r hr g hg hsame
  placed g hg := by
    obtain ⟨r, hr, hsame⟩ | ⟨j, hj⟩ := h.placed g hg
    · exact .inl ⟨r, mem_leave_of_mem hr, hsame⟩
    · by_cases hji : j = i
      · subst hji
        rw [hcall, Option.some.injEq] at hj
        cases ok with
        | false => exact absurd hj.symm (hnone rfl g hg)
        | true =>
          refine .inl ⟨_, List.mem_cons_self, ?_⟩
          rw [hcall, hj, Option.getD_some]
      · exact .inr ⟨j, leave_iff.2 ⟨hji, hj⟩⟩
  entered r hr p hp := by
    obtain ⟨hok, rfl⟩ | hr := mem_leave hcall hr
    · exact hfull hok p hp
    · exact h.entered r hr p hp
  entries := h.entries
  capped := by
    apply h.capped.mono
    intro a _ b _ hcounts
    obtain ⟨hkey, hfresh⟩ := counts_iff.1 hcounts
    exact counts_iff.2 ⟨hkey, fresh_iff.2 (fun r hr => fresh_iff.1 hfresh r (mem_leave_of_mem hr))⟩

theorem eval_granted (hcall : w.inCall i = some c)
    (hroom : (admitScript w.store w.now key reading window limit token).1 = true) :
    (w.eval i key reading window limit token).2 = { w with
      store := (admitScript w.store w.now key reading window limit token).2
      grants := ⟨c, key, token, window, limit, reading, w.now⟩ :: w.grants } := by
  simp only [eval, hroom, hcall, if_true, Option.getD_some]

theorem eval_refused (hfull : (admitScript w.store w.now key reading window limit token).1 = false) :
    (w.eval i key reading window limit token).2 = { w with
      store := (admitScript w.store w.now key reading window limit token).2 } := by
  simp only [eval, hfull, Bool.false_eq_true, if_false]

/-- An entry added for a call that had none in this window. -/
theorem Metered.grant (h : Metered limiter tenant vendor w) (hcall : w.inCall i = some c)
    (hdrawn : token ∈ w.drawn.map Prod.fst) (hfree : ∀ g ∈ w.grants, g.token ≠ token)
    (hp : p ∈ limiter.windows vendor) (hkey : key = rateKey vendor tenant p.1)
    (hnew : ∀ g ∈ w.grants, g.call = c → g.key ≠ key)
    (hkept : ∀ g ∈ w.grants, g.key = key → w.fresh w.now g = true →
      (g.token, g.reading) ∈ counted w.store w.now key reading (windowMs p.1))
    (hroom : (admitScript w.store w.now key reading (windowMs p.1) p.2 token).1 = true) :
    Metered limiter tenant vendor (w.eval i key reading (windowMs p.1) p.2 token).2 := by
  rw [eval_granted hcall hroom]
  have hopen : ∀ r ∈ w.returned, r.call ≠ c :=
    fun r hr hsame => (h.returns r hr).2.2.2 i (hsame ▸ hcall)
  constructor
  · exact h.owners
  · intro g hg
    obtain rfl | hg := List.mem_cons.1 hg
    · exact hdrawn
    · exact h.drawn g hg
  · intro g hg
    obtain rfl | hg := List.mem_cons.1 hg
    · exact ⟨(h.inCalls i c hcall).1, le_refl _, p, hp, hkey, rfl, rfl⟩
    · exact h.form g hg
  · refine List.nodup_cons.2 ⟨fun hin => ?_, h.tokens⟩
    obtain ⟨g, hg, hsame⟩ := List.mem_map.1 hin
    exact hfree g hg hsame
  · refine List.nodup_cons.2 ⟨fun hin => ?_, h.pairs⟩
    obtain ⟨g, hg, hsame⟩ := List.mem_map.1 hin
    rw [Prod.mk.injEq] at hsame
    exact hnew g hg hsame.2 hsame.1
  · exact h.inCalls
  · exact h.returns
  · exact h.distinct
  · intro r hr g hg hsame
    obtain rfl | hg := List.mem_cons.1 hg
    · exact absurd hsame.symm (hopen r hr)
    · exact h.before r hr g hg hsame
  · intro g hg
    obtain rfl | hg := List.mem_cons.1 hg
    · exact .inr ⟨i, hcall⟩
    · exact h.placed g hg
  · intro r hr q hq
    obtain ⟨g, hg, hrest⟩ := h.entered r hr q hq
    exact ⟨g, List.mem_cons_of_mem _ hg, hrest⟩
  · intro k e he
    obtain he | ⟨-, rfl, rfl⟩ := members_admitScript he
    · obtain ⟨g, hg, hrest⟩ := h.entries k e he
      exact ⟨g, List.mem_cons_of_mem _ hg, hrest⟩
    · exact ⟨_, List.mem_cons_self, rfl, rfl⟩
  · refine ⟨?_, h.capped⟩
    have hlt := admitScript_fst.1 hroom
    have hold : w.grants.countP (fun g => decide (g.key = key) && w.fresh w.now g) ≤
        (counted w.store w.now key reading (windowMs p.1)).length := by
      rw [List.countP_eq_length_filter]
      have hnodup : ((w.grants.filter (fun g => decide (g.key = key) && w.fresh w.now g)).map
          (fun g => (g.token, g.reading))).Nodup := by
        apply List.Nodup.of_map Prod.fst
        rw [List.map_map]
        exact h.tokens.sublist (List.filter_sublist.map RateGrant.token)
      have hsub : (w.grants.filter (fun g => decide (g.key = key) && w.fresh w.now g)).map
          (fun g => (g.token, g.reading)) ⊆
            counted w.store w.now key reading (windowMs p.1) := by
        intro e he
        obtain ⟨g, hg, rfl⟩ := List.mem_map.1 he
        obtain ⟨hg, hcounts⟩ := List.mem_filter.1 hg
        rw [Bool.and_eq_true, decide_eq_true_eq] at hcounts
        exact hkept g hg hcounts.1 hcounts.2
      have hle := (List.Nodup.subperm hnodup hsub).length_le
      rw [List.length_map] at hle
      exact hle
    refine le_trans (Int.ofNat_le.2 (countP_cons_le _ _ _)) ?_
    change ((w.grants.countP (fun g => decide (g.key = key) && w.fresh w.now g) + 1 : Nat) : Int) ≤
      p.2
    omega

theorem Metered.refuse (h : Metered limiter tenant vendor w)
    (hfull : (admitScript w.store w.now key reading window limit token).1 = false) :
    Metered limiter tenant vendor (w.eval i key reading window limit token).2 := by
  rw [eval_refused hfull]
  constructor
  · exact h.owners
  · exact h.drawn
  · exact h.form
  · exact h.tokens
  · exact h.pairs
  · exact h.inCalls
  · exact h.returns
  · exact h.distinct
  · exact h.before
  · exact h.placed
  · exact h.entered
  · intro k e he
    obtain he | ⟨htrue, -, -⟩ := members_admitScript he
    · exact h.entries k e he
    · rw [hfull] at htrue
      cases htrue
  · exact h.capped

structure Relies (i : Nat) (w u : RateWorld) : Prop where
  now : w.now ≤ u.now
  drawn : w.drawn ⊆ u.drawn
  inCall : u.inCall i = w.inCall i
  grants : w.grants ⊆ u.grants
  tokens : ∀ token, (token, i) ∈ w.drawn → ∀ g ∈ u.grants, g.token = token → g ∈ w.grants
  ownCall : ∀ c, w.inCall i = some c → ∀ g ∈ u.grants, g.call = c → g ∈ w.grants
  backoff : w.inCall i ≠ none → u.backoff = w.backoff

abbrev Guarantees (i : Nat) (w u : RateWorld) : Prop := ∀ j, j ≠ i → Relies j w u

theorem Relies.refl (i : Nat) (w : RateWorld) : Relies i w w :=
  ⟨le_refl _, List.Subset.refl _, rfl, List.Subset.refl _, fun _ _ _ h _ => h, fun _ _ _ h _ => h,
    fun _ => rfl⟩

theorem Relies.trans (h : Relies i w t) (h' : Relies i t u) : Relies i w u where
  now := le_trans h.now h'.now
  drawn := List.Subset.trans h.drawn h'.drawn
  inCall := h'.inCall.trans h.inCall
  grants := List.Subset.trans h.grants h'.grants
  tokens token htoken g hg hsame :=
    h.tokens token htoken g (h'.tokens token (h.drawn htoken) g hg hsame) hsame
  ownCall c hc g hg hsame :=
    h.ownCall c hc g (h'.ownCall c (h.inCall.trans hc) g hg hsame) hsame
  backoff hc := (h'.backoff (h.inCall ▸ hc)).trans (h.backoff hc)

/-- The call of a worker has passed its check, no backoff is active, and its entries so far are
those of the windows done. -/
structure Within (limiter : RateLimiter) (tenant : Int) (vendor : String) (i : Nat)
    (done : List (String × Int)) (w : RateWorld) : Prop where
  calm : ∀ d, w.backoff = some d → d < w.now
  call : ∃ c, w.inCall i = some c ∧
    (∀ p ∈ done, ∃ g ∈ w.grants, g.call = c ∧ g.key = rateKey vendor tenant p.1) ∧
    ∀ g ∈ w.grants, g.call = c → ∃ p ∈ done, g.key = rateKey vendor tenant p.1

theorem Within.stable (h : Within limiter tenant vendor i done w) (hw : Relies i w u) :
    Within limiter tenant vendor i done u := by
  obtain ⟨hcalm, c, hc, hdone, hown⟩ := h
  constructor
  · intro d hd
    rw [hw.backoff (hc ▸ Option.some_ne_none c)] at hd
    exact lt_of_lt_of_le (hcalm d hd) hw.now
  · refine ⟨c, hw.inCall.trans hc, fun p hp => ?_, fun g hg hsame => ?_⟩
    · obtain ⟨g, hg, hrest⟩ := hdone p hp
      exact ⟨g, hw.grants hg, hrest⟩
    · exact hown g (hw.ownCall c hc g hg hsame) hsame

theorem Within.backedOff_eq (h : Within limiter tenant vendor i done w) : w.backedOff = false := by
  rw [backedOff]
  cases hd : w.backoff with
  | none => rfl
  | some d =>
    rw [Option.any_some, decide_eq_false_iff_not]
    exact not_le.2 (h.calm d hd)

/-- A run of one worker among the others, where every step is orderly. -/
abbrev Paced (limiter : RateLimiter) (tenant : Int) (vendor : String) (i : Nat)
    (post : α → RateWorld → Prop) (t : RateTask α) (w : RateWorld) : Prop :=
  Dialog.Meets (fun w q r u => Orderly limiter.maxWaitSeconds i w q ∧ w.Answers i q r u) (Relies i)
    (Guarantees i) (Metered limiter tenant vendor) post t w

theorem Paced.idle {q : RateAsk} {f : RateReply q → RateTask β} {post : β → RateWorld → Prop}
    (hq : ∀ t r u, Answers i t q r u → u = t)
    (h : ∀ t r, Relies i w t → Answers i t q r t → Paced limiter tenant vendor i post (f r) t) :
    Paced limiter tenant vendor i post (Dialog.query q >>= f) w := by
  apply Dialog.Meets.query
  rintro t hwt hI r u ⟨-, hr⟩
  obtain rfl := hq t r u hr
  exact ⟨hI, fun j _ => Relies.refl j u, h u r hwt hr⟩

theorem sleep_meets (seconds : Rat) :
    Paced limiter tenant vendor i
      (fun _ u => Relies i w u ∧ (w.now : Rat) + 1000 * seconds ≤ u.now)
      (RateTask.sleep seconds) w := by
  refine Paced.idle (fun t r u h => h.2) ?_
  rintro t start hwt ⟨rfl, -⟩
  rintro t' htt' hI r u ⟨-, hlate, rfl⟩
  refine ⟨hI, fun j _ => Relies.refl j u, hwt.trans htt', le_trans ?_ hlate⟩
  exact add_le_add_left (Nat.cast_le.2 hwt.now) _

theorem leave_meets {ok : Bool} (h : Within limiter tenant vendor i done w)
    (hfull : ok = true → done = limiter.windows vendor) (hnone : ok = false → done = []) :
    Paced limiter tenant vendor i (fun _ u => u.inCall i = none)
      (Dialog.query (RateAsk.leave ok)) w := by
  rintro t hwt hI r u ⟨-, rfl⟩
  have ht := h.stable hwt
  obtain ⟨c, hc, hdone, hown⟩ := ht.call
  refine ⟨hI.leave hc ht.backedOff_eq ok ?_ ?_, ?_, Function.update_self ..⟩
  · intro hok p hp
    exact hdone p (hfull hok ▸ hp)
  · intro hok g hg hsame
    obtain ⟨p, hp, -⟩ := hown g hg hsame
    rw [hnone hok] at hp
    cases hp
  · intro j hj
    exact ⟨le_refl _, List.Subset.refl _, Function.update_of_ne hj .., List.Subset.refl _,
      fun _ _ _ h _ => h, fun _ _ _ h _ => h, fun _ => rfl⟩

theorem eval_meets {f : Bool → RateTask β} {post : β → RateWorld → Prop}
    (h : Within limiter tenant vendor i done w) (hdrawn : (token, i) ∈ w.drawn)
    (hfree : ∀ g ∈ w.grants, g.token ≠ token) (hp : p ∈ limiter.windows vendor)
    (hnew : ∀ q ∈ done, q.1 ≠ p.1)
    (hheld : ∀ u, Within limiter tenant vendor i (done ++ [p]) u →
      Paced limiter tenant vendor i post (f true) u)
    (hrefused : ∀ u, Within limiter tenant vendor i [] u →
      Paced limiter tenant vendor i post (f false) u) (reading : Nat) :
    Paced limiter tenant vendor i post (Dialog.query
      (RateAsk.eval (rateKey vendor tenant p.1) reading (windowMs p.1) p.2 token) >>= f) w := by
  apply Dialog.Meets.query
  rintro t hwt hI r u ⟨⟨hearlier, hkept⟩, hr⟩
  have ht := h.stable hwt
  obtain ⟨c, hc, hdone, hown⟩ := ht.call
  have hfree' : ∀ g ∈ t.grants, g.token ≠ token :=
    fun g hg hsame => hfree g (hwt.tokens token hdrawn g hg hsame) hsame
  have hdrawn' := hwt.drawn hdrawn
  have hu : u = (t.eval i (rateKey vendor tenant p.1) reading (windowMs p.1) p.2 token).2 :=
    congrArg Prod.snd hr
  have hr' : r = (admitScript t.store t.now (rateKey vendor tenant p.1) reading (windowMs p.1) p.2
      token).1 := congrArg Prod.fst hr
  cases r with
  | true =>
    have heq := hu.trans (eval_granted hc hr'.symm)
    refine ⟨?_, ?_, hheld u ?_⟩
    · rw [hu]
      refine hI.grant hc (List.mem_map_of_mem (f := Prod.fst) hdrawn') hfree' hp rfl ?_ hkept
        hr'.symm
      intro g hg hsame hkey
      obtain ⟨q, hq, hkey'⟩ := hown g hg hsame
      exact hnew q hq (rateKey_injective (hkey'.symm.trans hkey))
    · intro j hj
      rw [heq]
      refine ⟨le_refl _, List.Subset.refl _, rfl, List.subset_cons_self _ _, ?_, ?_, fun _ => rfl⟩
      · intro token' hj' g hg hsame
        obtain rfl | hg := List.mem_cons.1 hg
        · have howner := List.inj_on_of_nodup_map hI.owners hj' hdrawn' hsame.symm
          exact absurd (congrArg Prod.snd howner) hj
        · exact hg
      · intro c' hc' g hg hsame
        obtain rfl | hg := List.mem_cons.1 hg
        · exact absurd ((hI.inCalls i c hc).2 j (hc'.trans (congrArg some hsame.symm))) hj
        · exact hg
    · rw [heq]
      refine ⟨ht.calm, c, hc, fun q hq => ?_, fun g hg hsame => ?_⟩
      · obtain hq | hq := List.mem_append.1 hq
        · obtain ⟨g, hg, hrest⟩ := hdone q hq
          exact ⟨g, List.mem_cons_of_mem _ hg, hrest⟩
        · obtain rfl := List.mem_singleton.1 hq
          exact ⟨_, List.mem_cons_self, rfl, rfl⟩
      · obtain rfl | hg := List.mem_cons.1 hg
        · exact ⟨p, List.mem_append_right _ (List.mem_singleton_self p), rfl⟩
        · obtain ⟨q, hq, hkey⟩ := hown g hg hsame
          exact ⟨q, List.mem_append_left _ hq, hkey⟩
  | false =>
    have heq := hu.trans (eval_refused hr'.symm)
    refine ⟨hu ▸ hI.refuse hr'.symm, ?_, hrefused u ?_⟩
    · intro j _
      rw [heq]
      exact ⟨le_refl _, List.Subset.refl _, rfl, List.Subset.refl _, fun _ _ _ h _ => h,
        fun _ _ _ h _ => h, fun _ => rfl⟩
    · rw [heq]
      refine ⟨ht.calm, c, hc, fun q hq => absurd hq List.not_mem_nil, fun g hg hsame => ?_⟩
      have hroom := hearlier ⟨g, hg, hc.trans (congrArg some hsame.symm)⟩
      rw [admitScript_fst.2 hroom] at hr'
      cases hr'

theorem pass_meets {rest done : List (String × Int)}
    (hsplit : done ++ rest.filter RateLimiter.effective =
      limiter.windows vendor) (hnodup : ((limiter.windows vendor).map Prod.fst).Nodup)
    (h : Within limiter tenant vendor i done w) :
    Paced limiter tenant vendor i
      (fun ok u => Within limiter tenant vendor i (if ok then limiter.windows vendor else []) u)
      (RateLimiter.pass vendor tenant rest) w := by
  induction rest generalizing done w with
  | nil =>
    rw [List.filter_nil, List.append_nil] at hsplit
    change Within limiter tenant vendor i (limiter.windows vendor) w
    rw [← hsplit]
    exact h
  | cons p rest ih =>
    rw [RateLimiter.pass]
    by_cases hskip : windowMs p.1 = 0 ∨ p.2 ≤ 0
    · have hnot : ¬ RateLimiter.effective p = true := by
        rw [RateLimiter.effective, decide_eq_true_eq, not_and_or, not_not, not_lt]
        exact hskip
      rw [if_pos hskip]
      rw [List.filter_cons_of_neg hnot] at hsplit
      exact ih hsplit h
    · have hlimits : RateLimiter.effective p = true := by
        rw [not_or, not_le] at hskip
        exact decide_eq_true hskip
      rw [if_neg hskip]
      rw [List.filter_cons_of_pos hlimits] at hsplit
      have hp : p ∈ limiter.windows vendor :=
        hsplit ▸ List.mem_append_right _ List.mem_cons_self
      have hnew : ∀ q ∈ done, q.1 ≠ p.1 := by
        rw [← hsplit, List.map_append, List.nodup_append] at hnodup
        intro q hq
        exact hnodup.2.2 q.1 (List.mem_map_of_mem hq) p.1 (List.mem_map_of_mem List.mem_cons_self)
      refine Paced.idle (fun t r u h => h.2) ?_
      rintro t now hwt ⟨rfl, -⟩
      apply Dialog.Meets.query
      rintro t' htt' hI token u ⟨-, htoken, rfl⟩
      refine ⟨hI.draw htoken i, ?_, ?_⟩
      · intro j _
        exact ⟨le_refl _, List.subset_cons_self _ _, rfl, List.Subset.refl _, fun _ _ _ h _ => h,
          fun _ _ _ h _ => h, fun _ => rfl⟩
      · have hin : Within limiter tenant vendor i done { t' with drawn := (token, i) :: t'.drawn } :=
          ⟨((h.stable hwt).stable htt').calm, ((h.stable hwt).stable htt').call⟩
        refine eval_meets hin List.mem_cons_self ?_ hp hnew ?_ ?_ t.now
        · intro g hg hsame
          exact htoken (hsame ▸ hI.drawn g hg)
        · intro u hu
          rw [if_pos rfl]
          apply ih _ hu
          rw [List.append_assoc]
          exact hsplit
        · intro u hu
          exact hu

theorem acquireLoop_meets (hnodup : ((limiter.windows vendor).map Prod.fst).Nodup)
    (deadline : Rat) (polls : Nat) (h : Within limiter tenant vendor i [] w) :
    Paced limiter tenant vendor i (fun _ u => u.inCall i = none)
      (limiter.acquireLoop tenant vendor deadline polls) w := by
  induction polls generalizing w with
  | zero =>
    rintro t hwt hI r u ⟨-, hr⟩
    cases hr
  | succ polls ih =>
    rw [RateLimiter.acquireLoop]
    apply Dialog.Meets.bind
    apply (pass_meets (by rw [List.nil_append]; rfl) hnodup h).weaken
    intro ok u hu
    cases ok with
    | true => exact leave_meets hu (fun _ => rfl) (fun hok => nomatch hok)
    | false =>
      refine Paced.idle (fun t r u h => h) ?_
      intro t instant hut _
      have ht : Within limiter tenant vendor i [] t := Within.stable hu hut
      split
      · exact leave_meets ht (fun hok => nomatch hok) (fun _ => rfl)
      · apply Dialog.Meets.bind
        apply (sleep_meets (1 / 5)).weaken
        intro _ v hv
        exact ih (ht.stable hv.1)

theorem nodup_windows (limiter : RateLimiter) (vendor : String) :
    ((limiter.windows vendor).map Prod.fst).Nodup := by
  have hlimits : ((limiter.limitsOf vendor).map Prod.fst).Nodup := by
    rw [RateLimiter.limitsOf]
    split
    · next limits _ => exact limits.nodup
    · exact List.nodup_nil
  exact hlimits.sublist (List.filter_sublist.map Prod.fst)

theorem waitIfVendorBackoff_meets (hidle : w.inCall i = none) :
    Paced limiter tenant vendor i (fun _ u => Within limiter tenant vendor i [] u)
      (limiter.waitIfVendorBackoff vendor) w := by
  apply Dialog.Meets.query
  rintro t hwt hI ttl u ⟨hcover, rfl, rfl⟩
  have hidle' := hwt.inCall.trans hidle
  refine ⟨hI.begin hidle', fun j hj => ?_, ?_⟩
  · exact ⟨le_refl _, List.Subset.refl _, Function.update_of_ne hj .., List.Subset.refl _,
      fun _ _ _ h _ => h, fun c _ g hg _ => hg, fun _ => rfl⟩
  · have hcall : ∀ v, Relies i
        { t with calls := t.calls + 1, inCall := Function.update t.inCall i (some t.calls) } v →
        (∀ d, t.backoff = some d → d < v.now) → Within limiter tenant vendor i [] v := by
      intro v hv hcalm
      have hin : Function.update t.inCall i (some t.calls) i = some t.calls :=
        Function.update_self ..
      refine ⟨fun d hd => hcalm d ?_, t.calls, hv.inCall.trans hin, ?_, fun g hg hsame => ?_⟩
      · rw [← hd]
        exact (hv.backoff (fun hnone => nomatch hin.symm.trans hnone)).symm
      · exact fun p hp => absurd hp List.not_mem_nil
      · have hold := (hI.form g (hv.ownCall t.calls hin g hg hsame)).1
        exact absurd hsame (Nat.ne_of_lt hold)
    split
    · apply (sleep_meets _).weaken
      rintro _ v ⟨hv, hlate⟩
      apply hcall v hv
      intro d hd
      by_cases hd' : t.now ≤ d
      · exact Nat.cast_lt.1 (lt_of_lt_of_le (hcover d hd hd') hlate)
      · exact lt_of_lt_of_le (not_le.1 hd') hv.now
    · next httl =>
      apply hcall _ (Relies.refl i _)
      intro d hd
      by_contra hd'
      have hover := hcover d hd (not_lt.1 hd')
      have hmin : (min (t.ttl : Rat) limiter.maxWaitSeconds) ≤ 0 :=
        le_trans (min_le_left _ _) (Int.cast_nonpos.2 (not_lt.1 httl))
      have hcast : (t.now : Rat) ≤ d := Nat.cast_le.2 (not_lt.1 hd')
      linarith

theorem program_meets (c : RateCall) (hidle : w.inCall i = none) :
    Paced limiter tenant vendor i (fun _ u => u.inCall i = none)
      (RateCall.program limiter tenant vendor c) w := by
  cases c with
  | acquire polls =>
    apply Dialog.Meets.bind
    apply (waitIfVendorBackoff_meets hidle).weaken
    intro _ u hu
    split
    · next hempty =>
      have hwindows : [] = limiter.windows vendor := by
        rw [RateLimiter.windows, hempty]
        rfl
      exact leave_meets hu (fun _ => hwindows) (fun hok => nomatch hok)
    · refine Paced.idle (fun t r u h => h) ?_
      intro t start hut _
      exact acquireLoop_meets (nodup_windows limiter vendor) _ polls (hu.stable hut)
  | backoff retryAfter =>
    rintro t hwt hI r u ⟨hnobody, rfl⟩
    refine ⟨hI.setBackoff _, fun j _ => ?_, hwt.inCall.trans hidle⟩
    exact ⟨le_refl _, List.Subset.refl _, rfl, List.Subset.refl _, fun _ _ _ h _ => h,
      fun _ _ _ h _ => h, fun hj => absurd (hnobody j) hj⟩

theorem initial_metered : Metered limiter tenant vendor {} where
  owners := List.nodup_nil
  drawn _ hg := nomatch hg
  form _ hg := nomatch hg
  tokens := List.nodup_nil
  pairs := List.nodup_nil
  inCalls _ _ hc := nomatch hc
  returns _ hr := nomatch hr
  distinct := List.nodup_nil
  before _ hr := nomatch hr
  placed _ hg := nomatch hg
  entered _ hr := nomatch hr
  entries _ _ he := nomatch he
  capped := trivial

theorem metered_of_reaches {x : RateCrew}
    (h : Crew.Reaches (rateRules limiter tenant vendor (Orderly limiter.maxWaitSeconds))
      RateCrew.initial x) : Metered limiter tenant vendor x.shared := by
  have hassured : Crew.Assured
      (rateRules limiter tenant vendor (Orderly limiter.maxWaitSeconds)) Relies Guarantees
      (Metered limiter tenant vendor) (fun i w => w.inCall i = none) x := by
    apply h.assured
    · exact fun i s t u => Relies.trans
    · exact Relies.refl
    · exact fun i s t hs hst => hst.inCall.trans hs
    · exact fun i j s t hj hguar => hguar j hj
    · exact fun w i c _ hidle _ => program_meets c hidle
    · rintro w u hw ⟨now, hnow, rfl⟩
      refine ⟨hw.move hnow, fun i => ?_⟩
      exact ⟨hnow, List.Subset.refl _, rfl, List.Subset.refl _, fun _ _ _ h _ => h,
        fun _ _ _ h _ => h, fun _ => rfl⟩
    · exact ⟨initial_metered, fun _ => rfl⟩
  exact hassured.1

/-- Of the calls that return within one length of a window, at most its limit. -/
theorem Metered.bounded (h : Metered limiter tenant vendor w) (hp : p ∈ limiter.windows vendor)
    (t : Nat) : ((w.returned.countP
      (fun r => decide (r.time ≤ t ∧ t < r.time + windowMs p.1)) : Nat) : Int) ≤ p.2 := by
  generalize hR : w.returned.filter (fun r => decide (r.time ≤ t ∧ t < r.time + windowMs p.1)) = R
  have hmem : ∀ r, r ∈ R ↔ r ∈ w.returned ∧ r.time ≤ t ∧ t < r.time + windowMs p.1 := by
    intro r
    rw [← hR, List.mem_filter, decide_eq_true_eq]
  have hcalls : (R.map RateReturn.call).Nodup :=
    h.distinct.sublist ((hR ▸ List.filter_sublist).map RateReturn.call)
  rw [List.countP_eq_length_filter, hR]
  -- The entries of these calls in the window all count for each other.
  let q : RateGrant → Bool := fun g =>
    decide (g.key = rateKey vendor tenant p.1) && decide (g.call ∈ R.map RateReturn.call)
  have hq : ∀ g, q g = true ↔
      g.key = rateKey vendor tenant p.1 ∧ ∃ r ∈ R, r.call = g.call := by
    intro g
    rw [Bool.and_eq_true, decide_eq_true_eq, decide_eq_true_eq, List.mem_map]
  have hsub : R.map RateReturn.call ⊆ (w.grants.filter q).map RateGrant.call := by
    intro c hc
    obtain ⟨r, hr, rfl⟩ := List.mem_map.1 hc
    obtain ⟨g, hg, hcall, hkey⟩ := h.entered r ((hmem r).1 hr).1 p hp
    rw [← hcall]
    exact List.mem_map_of_mem (List.mem_filter.2 ⟨hg, (hq g).2 ⟨hkey, r, hr, hcall.symm⟩⟩)
  have hlength : R.length ≤ w.grants.countP q := by
    have hle := (List.Nodup.subperm hcalls hsub).length_le
    rw [List.length_map, List.length_map] at hle
    rw [List.countP_eq_length_filter]
    exact hle
  have hlimit : ∀ g ∈ w.grants, g.key = rateKey vendor tenant p.1 →
      g.limit = p.2 ∧ g.window = windowMs p.1 := by
    intro g hg hkey
    obtain ⟨-, -, p', hp', hkey', hlim, hwin⟩ := h.form g hg
    have hname : p'.1 = p.1 := rateKey_injective (hkey'.symm.trans hkey)
    obtain rfl : p' = p := List.inj_on_of_nodup_map (nodup_windows limiter vendor) hp' hp hname
    exact ⟨hlim, hwin⟩
  have hclose : ∀ a ∈ w.grants, q a = true → ∀ b ∈ w.grants, q b = true → w.counts a b = true := by
    intro a ha hqa b hb hqb
    obtain ⟨hka, ra, hra, hca⟩ := (hq a).1 hqa
    obtain ⟨hkb, rb, hrb, hcb⟩ := (hq b).1 hqb
    refine counts_iff.2 ⟨hkb.trans hka.symm, fresh_iff.2 (fun r hr hcall => ?_)⟩
    have hsame : r = rb := List.inj_on_of_nodup_map h.distinct hr ((hmem rb).1 hrb).1
      (hcall.trans hcb.symm)
    have htime := h.before ra ((hmem ra).1 hra).1 a ha hca.symm
    have hra' := ((hmem ra).1 hra).2
    have hrb' := ((hmem rb).1 hrb).2
    rw [(hlimit b hb hkb).2, hsame]
    omega
  by_cases hsome : ∃ g ∈ w.grants, q g = true
  · obtain ⟨g, hg, hqg, hle⟩ := h.capped.countP_le hclose hsome
    rw [(hlimit g hg ((hq g).1 hqg).1).1] at hle
    exact le_trans (Int.ofNat_le.2 hlength) hle
  · have hnone : w.grants.countP q = 0 :=
      List.countP_eq_zero.2 (fun g hg hqg => hsome ⟨g, hg, hqg⟩)
    have hpos : 0 < p.2 := (of_decide_eq_true (List.mem_filter.1 hp).2).2
    omega

theorem Metered.exact (h : Metered limiter tenant vendor w) : RateExact limiter tenant vendor w where
  bounded p hp t := h.bounded hp t
  heeded r hr := (h.returns r hr).2.2.1
  charged p _ e he := by
    obtain ⟨g, hg, hkey, hentry⟩ := h.entries _ e he
    exact ⟨g, hg, hkey, hentry, h.placed g hg⟩
  single g hg g' hg' hkey hsame := by
    obtain hcall | htoken := hsame
    · exact List.inj_on_of_nodup_map h.pairs hg hg' (Prod.ext hkey hcall)
    · exact List.inj_on_of_nodup_map h.tokens hg hg' htoken
  entered := h.entered

end Metered

end RateWorld

/-- In every run whose steps are orderly the limiter has been exact. -/
theorem rate_exact_of_orderly (x : RateCrew)
    (h : Crew.Reaches (rateRules limiter tenant vendor
      (RateWorld.Orderly limiter.maxWaitSeconds)) RateCrew.initial x) :
    RateExact limiter tenant vendor x.shared :=
  (RateWorld.metered_of_reaches h).exact

end Crews

namespace RateWorld

/-- Redis whose clock stands still. A token is a number not used before; the waiting clock runs on
with every entry. -/
def reply (i : Nat) (w : RateWorld) : (q : RateAsk) → RateReply q × RateWorld
  | .ttl _ => (w.ttl,
      { w with calls := w.calls + 1, inCall := Function.update w.inCall i (some w.calls) })
  | .loopTime => (w.now, w)
  | .wake _ => ((), w)
  | .monotonic => (1000 * w.grants.length, w)
  | .time => (w.now, w)
  | .uuid => let token := Nat.repr w.drawn.length; (token, { w with drawn := (token, i) :: w.drawn })
  | .eval key reading window limit token => w.eval i key reading window limit token
  | .leave ok => ((), w.leave i ok)
  | .beyond => ((), w)
  | .setBackoff _ seconds => ((), { w with backoff := some (w.now + 1000 * seconds) })

def answerable (w : RateWorld) : RateAsk → Bool
  | .wake deadline => decide (deadline ≤ w.now)
  | .uuid => decide (Nat.repr w.drawn.length ∉ w.drawn.map Prod.fst)
  | .beyond => false
  | _ => true

theorem answers_reply (i : Nat) (w : RateWorld) (q : RateAsk) (h : w.answerable q = true) :
    Answers i w q (reply i w q).1 (reply i w q).2 := by
  cases q with
  | ttl key => exact ⟨rfl, rfl⟩
  | loopTime => exact ⟨rfl, rfl⟩
  | wake deadline => exact ⟨of_decide_eq_true h, rfl⟩
  | time => exact ⟨rfl, rfl⟩
  | uuid => exact ⟨of_decide_eq_true h, rfl⟩
  | beyond => cases h
  | _ => rfl

/-- No backoff, and no entry yet. -/
def untouched (w : RateWorld) : RateAsk → Bool
  | .ttl _ => w.backoff.isNone
  | .eval .. => w.grants.isEmpty
  | .setBackoff .. => false
  | q => w.answerable q

theorem orderly_reply {w : RateWorld} (h : w.untouched q = true) (maxWait : Rat) (i : Nat) :
    w.Orderly maxWait i q ∧ w.Answers i q (reply i w q).1 (reply i w q).2 := by
  cases q with
  | ttl key =>
    refine ⟨fun d hd => ?_, answers_reply i w _ rfl⟩
    rw [Option.isNone_iff_eq_none.1 h] at hd
    cases hd
  | eval key reading window limit token =>
    have hempty : w.grants = [] := List.isEmpty_iff.1 h
    refine ⟨⟨fun ⟨g, hg, _⟩ => ?_, fun g hg => ?_⟩, answers_reply i w _ rfl⟩
    · rw [hempty] at hg
      cases hg
    · rw [hempty] at hg
      cases hg
  | setBackoff key seconds => cases h
  | _ => exact ⟨trivial, answers_reply i w _ h⟩

end RateWorld

/-- Five calls in a second, one in a minute. -/
def sophosLimiter : RateLimiter where
  limits := Dict.empty.set "sophos"
    ((Dict.empty.set "per_second" 5).set "per_minute" 1)

def secondLimiter : RateLimiter where
  limits := Dict.empty.set "sophos" (Dict.empty.set "per_second" 1)

def rateRun (limiter : RateLimiter) (p : RateWorld → RateAsk → Bool)
    (cues : List (Crew.Cue Nat RateCall)) : RateCrew :=
  cues.foldl (Crew.cue (rateRules limiter 42 "sophos" (fun _ _ _ => True)) RateWorld.reply p)
    RateCrew.initial

def callThenGo (i : Nat) (call : RateCall) (steps : Nat) : List (Crew.Cue Nat RateCall) :=
  .call i call :: List.replicate steps (.go i)

theorem rateRun_reaches (limiter : RateLimiter) {p : RateWorld → RateAsk → Bool}
    {allowed : Nat → RateWorld → RateAsk → Prop}
    (hp : ∀ i w q, p w q = true →
      allowed i w q ∧ w.Answers i q (RateWorld.reply i w q).1 (RateWorld.reply i w q).2)
    (cues : List (Crew.Cue Nat RateCall)) :
    Crew.Reaches (rateRules limiter 42 "sophos" allowed) RateCrew.initial
      (rateRun limiter p cues) :=
  Crew.reaches_foldl_cue (R := rateRules limiter 42 "sophos" allowed) (fun _ _ _ _ => trivial) hp
    RateCrew.initial

/-- One call takes the one place of its second. -/
theorem rate_exact_of_orderly_one :
    (rateRun secondLimiter RateWorld.untouched (callThenGo 0 (.acquire 1) 6)).shared.returned.length
        = 1 ∧
      RateExact secondLimiter 42 "sophos"
        (rateRun secondLimiter RateWorld.untouched (callThenGo 0 (.acquire 1) 6)).shared := by
  constructor
  · decide +kernel
  · apply rate_exact_of_orderly
    exact rateRun_reaches secondLimiter (fun i w q hq => RateWorld.orderly_reply hq _ i) _

/-- The minute is full: the second call times out, and its entry stays in the second. -/
def refusedRun : RateCrew :=
  rateRun sophosLimiter RateWorld.answerable
    (callThenGo 0 (.acquire 1) 9 ++ callThenGo 1 (.acquire 1) 10)

/-- The vendor answers 429 to one worker while another is past its check. -/
def backedOffRun : RateCrew :=
  rateRun secondLimiter RateWorld.answerable
    (callThenGo 0 (.acquire 1) 5 ++ callThenGo 1 (.backoff 60) 1 ++ [.go 0])

theorem reply_inCall {w : RateWorld} (hi : i < 2) (h : ∀ j, 2 ≤ j → w.inCall j = none) (q : RateAsk) :
    ∀ j, 2 ≤ j → (RateWorld.reply i w q).2.inCall j = none := by
  intro j hj
  have hne : j ≠ i := fun he => absurd (he ▸ hi) (not_lt.2 hj)
  cases q with
  | ttl key => exact (Function.update_of_ne hne ..).trans (h j hj)
  | leave ok => exact (Function.update_of_ne hne ..).trans (h j hj)
  | _ => exact h j hj

theorem refusedRun_idle (i : Nat) : refusedRun.shared.inCall i = none := by
  by_cases hi : 2 ≤ i
  · refine Crew.foldl_cue_keeps (P := fun w : RateWorld => ∀ j, 2 ≤ j → w.inCall j = none) ?_
      RateCrew.initial (fun _ _ => rfl) i hi
    intro m hm w q hw
    have hworker : m.worker < 2 := by
      obtain hm | hm := List.mem_append.1 hm
      · obtain rfl | hm := List.mem_cons.1 hm
        · exact Nat.zero_lt_two
        · rw [List.eq_of_mem_replicate hm]
          exact Nat.zero_lt_two
      · obtain rfl | hm := List.mem_cons.1 hm
        · exact Nat.one_lt_two
        · rw [List.eq_of_mem_replicate hm]
          exact Nat.one_lt_two
    exact reply_inCall hworker hw q
  · obtain rfl | rfl : i = 0 ∨ i = 1 := by omega
    · decide +kernel
    · decide +kernel

/-- A refused call leaves an entry in another window, and a call returns during a backoff. -/
theorem rate_not_exact :
    (Crew.Reaches (rateRules sophosLimiter 42 "sophos" (fun _ _ _ => True)) RateCrew.initial
        refusedRun ∧ ¬ RateExact sophosLimiter 42 "sophos" refusedRun.shared) ∧
      Crew.Reaches (rateRules secondLimiter 42 "sophos" (fun _ _ _ => True)) RateCrew.initial
        backedOffRun ∧ ¬ RateExact secondLimiter 42 "sophos" backedOffRun.shared := by
  have hreaches : ∀ limiter cues,
      Crew.Reaches (rateRules limiter 42 "sophos" (fun _ _ _ => True)) RateCrew.initial
        (rateRun limiter RateWorld.answerable cues) :=
    fun limiter cues => rateRun_reaches limiter
      (fun i w q hq => ⟨trivial, RateWorld.answers_reply i w q hq⟩) cues
  refine ⟨⟨hreaches _ _, fun h => ?_⟩, hreaches _ _, fun h => ?_⟩
  · have hentry : ("2", 0) ∈ refusedRun.shared.store.members refusedRun.shared.now
        (rateKey "sophos" 42 "per_second") := by decide +kernel
    have hpaid : ∀ g ∈ refusedRun.shared.grants, (g.token, g.reading) = ("2", 0) →
        ¬ ∃ r ∈ refusedRun.shared.returned, r.call = g.call := by decide +kernel
    obtain ⟨g, hg, -, htoken, hreturned | ⟨i, hi⟩⟩ :=
      h.charged ("per_second", 5) (by decide +kernel) _ hentry
    · exact hpaid g hg htoken hreturned
    · rw [refusedRun_idle i] at hi
      cases hi
  · have hnot : ¬ ∀ r ∈ backedOffRun.shared.returned, r.duringBackoff = false := by
      decide +kernel
    exact hnot h.heeded

end CentralOps
