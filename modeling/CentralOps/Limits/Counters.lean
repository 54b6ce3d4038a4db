import CentralOps.Lib.Stages
import CentralOps.Limits.RedisLimiter

namespace CentralOps
set_option autoImplicit true

/-- What becomes of a command: it is answered; it fails before Redis carries it out, or after; a
worker that crashes loses the answer too. -/
inductive LimitOutcome where
  | answered | refused | lost

def LimitAsk.counts : LimitAsk → Option String
  | .incr key => some key
  | .countDistinct cntKey _ _ _ => some cntKey
  | _ => none

def LimitAsk.expires : LimitAsk → Option (String × Int)
  | .expire key seconds => some (key, seconds)
  | .setEx key seconds => some (key, seconds)
  | .countDistinct _ distinctKey _ window => some (distinctKey, window)
  | _ => none

def LimitAsk.due : (q : LimitAsk) → Option (LimitReply q) → Option String
  | .incr key, some count => if count = 1 then some key else none
  | .countDistinct cntKey _ _ _, some results => if results.1 = 1 then some cntKey else none
  | _, _ => none

/-- Redis, and the counters whose `EXPIRE` is still to be asked by the worker that saw the 1. -/
structure CounterWorld where
  redis : LimitKeys := {}
  pending : Nat → Option String := fun _ => none

def CounterWorld.reply (i : Nat) (w : CounterWorld) (o : LimitOutcome) (q : LimitAsk) :
    Option (LimitReply q) × CounterWorld :=
  match o with
  | .answered =>
    ((w.redis.exec q).1,
      ⟨(w.redis.exec q).2, Function.update w.pending i (q.due (w.redis.exec q).1)⟩)
  | .refused => (none, { w with pending := Function.update w.pending i none })
  | .lost => (none, ⟨(w.redis.exec q).2, Function.update w.pending i none⟩)

abbrev LimitLaw := Nat → CounterWorld → LimitAsk → LimitOutcome → Prop

def anyOutcome : LimitLaw := fun _ _ _ _ => True

/-- No `INCR` that creates a counter loses its answer, and no `EXPIRE` fails on a counter without
expiry, unless another worker is about to ask for the `EXPIRE` of that counter. -/
def ArmsCounter : LimitLaw := fun i w q o =>
  match q, o with
  | .incr key, .lost => w.redis.read key ≠ none ∨ ∃ j, j ≠ i ∧ w.pending j = some key
  | .countDistinct cntKey _ _ _, .lost =>
    w.redis.read cntKey ≠ none ∨ ∃ j, j ≠ i ∧ w.pending j = some cntKey
  | .expire key _, .refused =>
    ¬ Volatile.Bare (w.redis.keys key) ∨ ∃ j, j ≠ i ∧ w.pending j = some key
  | _, _ => True

abbrev LimitCrew :=
  Crew CounterWorld Nat LimitCall LimitAsk (fun q => Option (LimitReply q)) LimitResult

def LimitCrew.idle : LimitCrew := ⟨{}, fun _ => none⟩

/-- Workers that make the calls that may be made, in any order. -/
def limiterRules (cfg : LimiterConfig) (calls : LimitCall → Prop) (allowed : LimitLaw) :
    CrewRules CounterWorld Nat LimitCall LimitAsk (fun q => Option (LimitReply q)) LimitResult where
  program := LimitCall.program cfg
  starts _ _ c := calls c
  answers i w q r u := ∃ o, allowed i w q o ∧ (r, u) = w.reply i o q
  moves w u := ∃ t, w.redis.now ≤ t ∧ u = { w with redis := { w.redis with now := t } }

def anyCall : LimitCall → Prop := fun _ => True

/-- Without a call in progress no key is without expiry, and a counter that is left alone for its
window starts afresh. -/
structure CountersHeal (cfg : LimiterConfig) (allowed : LimitLaw) : Prop where
  expiring : ∀ x, Crew.Reaches (limiterRules cfg anyCall allowed) LimitCrew.idle x →
    (∀ i, x.running i = none) → ∀ key v, x.shared.redis.keys key = some v → v.expiry ≠ none
  restarts : ∀ x y (c : LimitCall),
    Crew.Reaches (limiterRules cfg anyCall allowed) LimitCrew.idle x →
    (∀ i c' t, x.running i = some (c', t) → c'.counterKey ≠ c.counterKey) →
    Crew.Reaches (limiterRules cfg (fun c' => c'.counterKey ≠ c.counterKey) anyOutcome) x y →
    x.shared.redis.now + c.window cfg < y.shared.redis.now →
    y.shared.redis.read c.counterKey = none

section Keys

theorem append_ne_append {a b : String} (hab : a.toList.isPrefixOf b.toList = false)
    (hba : b.toList.isPrefixOf a.toList = false) (x y : String) : a ++ x ≠ b ++ y := by
  intro h
  have hlists : a.toList ++ x.toList = b.toList ++ y.toList := by
    rw [← String.toList_append, ← String.toList_append, h]
  have ha : a.toList <+: b.toList ++ y.toList := hlists ▸ List.prefix_append _ _
  obtain hpre | hpre := List.prefix_or_prefix_of_prefix ha (List.prefix_append b.toList y.toList)
  · rw [List.isPrefixOf_iff_prefix.2 hpre] at hab
    cases hab
  · rw [List.isPrefixOf_iff_prefix.2 hpre] at hba
    cases hba

def LimitCall.family : LimitCall → String
  | .registerFailure _ | .registerFailureWithCardinality .. | .reset _ => "auth_fail_cnt:"
  | .checkCreate _ | .checkDelete _ => "integ_ratelimit:"
  | .check limiter _ | .resetToken limiter _ => limiter.keyPrefix ++ ":"

def counterFamilies : List String :=
  ["auth_fail_cnt:", "integ_ratelimit:", "pat_ratelimit:", "ingest_ratelimit:"]

namespace LimitCall

theorem token_family_mem (limiter : TokenLimiter) :
    limiter.keyPrefix ++ ":" ∈ counterFamilies := by
  cases limiter <;> decide

theorem family_mem (c : LimitCall) : c.family ∈ counterFamilies := by
  cases c with
  | check limiter _ => exact token_family_mem limiter
  | resetToken limiter _ => exact token_family_mem limiter
  | checkCreate _ | checkDelete _ => exact List.mem_cons_of_mem _ List.mem_cons_self
  | _ => exact List.mem_cons_self

theorem counterKey_eq (c : LimitCall) : ∃ rest, c.counterKey = c.family ++ rest := by
  cases c <;> exact ⟨_, rfl⟩

theorem counterKey_ne {b : String} (c : LimitCall)
    (h : ∀ a ∈ counterFamilies, a.toList.isPrefixOf b.toList = false ∧
      b.toList.isPrefixOf a.toList = false) (y : String) : c.counterKey ≠ b ++ y := by
  obtain ⟨rest, hrest⟩ := c.counterKey_eq
  obtain ⟨hab, hba⟩ := h c.family c.family_mem
  rw [hrest]
  exact append_ne_append hab hba rest y

theorem counterKey_ne_lockout (c : LimitCall) (key : String) :
    c.counterKey ≠ RedisAttemptStore.lockoutKey key := c.counterKey_ne (by decide) key

theorem counterKey_ne_distinct (c : LimitCall) (ip : String) :
    c.counterKey ≠ RedisAttemptStore.distinctUsersKey ip := c.counterKey_ne (by decide) ip

theorem families_apart : ∀ a ∈ counterFamilies, ∀ b ∈ counterFamilies, a ≠ b →
    a.toList.isPrefixOf b.toList = false ∧ b.toList.isPrefixOf a.toList = false := by
  decide

theorem window_family (cfg : LimiterConfig) (c : LimitCall) :
    c.window cfg = if c.family = "auth_fail_cnt:" then cfg.auth.failureWindow else 60 := by
  cases c with
  | check limiter _ => cases limiter <;> rfl
  | resetToken limiter _ => cases limiter <;> rfl
  | _ => rfl

theorem window_eq (cfg : LimiterConfig) {c d : LimitCall} (h : c.counterKey = d.counterKey) :
    c.window cfg = d.window cfg := by
  have hfamily : c.family = d.family := by
    by_contra hne
    obtain ⟨hab, hba⟩ := families_apart _ c.family_mem _ d.family_mem hne
    obtain ⟨rest, hrest⟩ := c.counterKey_eq
    obtain ⟨rest', hrest'⟩ := d.counterKey_eq
    exact append_ne_append hab hba rest rest' (hrest ▸ hrest' ▸ h)
  rw [window_family, window_family, hfamily]

end LimitCall

theorem ipLockoutKey_eq (ip : String) :
    RedisAttemptStore.ipLockoutKey ip = RedisAttemptStore.lockoutKey ("ip:" ++ ip) := by
  rw [RedisAttemptStore.ipLockoutKey, RedisAttemptStore.lockoutKey, ← String.append_assoc]
  rfl

theorem lockout_ne_distinct (key ip : String) :
    RedisAttemptStore.lockoutKey key ≠ RedisAttemptStore.distinctUsersKey ip :=
  append_ne_append (by decide) (by decide) key ip

end Keys

inductive KeyStep (w u : LimitKeys) (q : LimitAsk) (k : String) : Prop
  | same : u.keys k = w.keys k → KeyStep w u q k
  | gone : u.keys k = none → KeyStep w u q k
  | created : q.counts = some k → w.read k = none → Volatile.Bare (u.keys k) → KeyStep w u q k
  | counted : w.keys k = some v → u.keys k = some ⟨.number n, v.expiry⟩ → KeyStep w u q k
  | expiring : q.expires = some (k, s) → Volatile.Until (u.keys k) (w.now + s) → KeyStep w u q k

namespace LimitKeys

variable {w u : LimitKeys} {k : String}

theorem put_keys (w : LimitKeys) (key k : String) (v : Option (Volatile LimitValue)) :
    (w.put key v).keys k = if k = key then v else w.keys k := Function.update_apply ..

theorem put_keys_ne {key k : String} (h : k ≠ key) (v : Option (Volatile LimitValue)) :
    (w.put key v).keys k = w.keys k := Function.update_of_ne h ..

theorem incr_now (w : LimitKeys) (key : String) : (w.incr key).2.now = w.now := by
  rw [incr]
  split <;> rfl

theorem sadd_now (w : LimitKeys) (key member : String) : (w.sadd key member).2.now = w.now := by
  rw [sadd]
  split <;> rfl

theorem incr_keys_ne {key k : String} (h : k ≠ key) : (w.incr key).2.keys k = w.keys k := by
  rw [incr]
  split
  · exact put_keys_ne h _
  · exact put_keys_ne h _
  · rfl

theorem incr_step {q : LimitAsk} (hq : q.counts = some k) (h : u.keys k = (w.incr k).2.keys k) :
    KeyStep w u q k := by
  rw [incr] at h
  split at h
  · next hread =>
    rw [put_keys, if_pos rfl] at h
    exact .created hq hread ⟨_, h⟩
  · next n e hread =>
    rw [put_keys, if_pos rfl] at h
    exact .counted (Volatile.read_some hread) h
  · exact .same h

theorem sadd_keys_ne {key k : String} (h : k ≠ key) (member : String) :
    (w.sadd key member).2.keys k = w.keys k := by
  rw [sadd]
  split
  · exact put_keys_ne h _
  · exact put_keys_ne h _
  · rfl

/-- Every command does to each key what a command may do. -/
theorem exec_step (w : LimitKeys) (q : LimitAsk) (k : String) : KeyStep w (w.exec q).2 q k := by
  cases q with
  | ttl key => exact .same rfl
  | get key =>
    rw [exec]
    split <;> exact .same rfl
  | incr key =>
    by_cases hk : k = key
    · subst hk
      exact incr_step rfl rfl
    · exact .same (incr_keys_ne hk)
  | expire key seconds =>
    by_cases hk : k = key
    · subst hk
      apply KeyStep.expiring (s := seconds) rfl
      change Volatile.Until ((w.put k _).keys k) _
      rw [put_keys, if_pos rfl]
      exact Volatile.until_expire
    · exact .same (put_keys_ne hk _)
  | setEx key seconds =>
    change KeyStep w (w.setEx key seconds).2 _ k
    rw [setEx]
    split
    · exact .same rfl
    · by_cases hk : k = key
      · subst hk
        apply KeyStep.expiring (s := seconds) rfl
        change Volatile.Until ((w.put k _).keys k) _
        rw [put_keys, if_pos rfl]
        exact Volatile.until_some _ _
      · exact .same (put_keys_ne hk _)
  | countDistinct cntKey distinctKey usernameHash window =>
    by_cases hk : k = distinctKey
    · subst hk
      apply KeyStep.expiring (s := window) rfl
      change Volatile.Until ((LimitKeys.put _ k _).keys k) _
      rw [put_keys, if_pos rfl]
      have hnow : ((w.incr cntKey).2.sadd k usernameHash).2.now = w.now := by
        rw [sadd_now, incr_now]
      rw [hnow]
      exact Volatile.until_expire
    · have hsame : (w.countDistinct cntKey distinctKey usernameHash window).2.keys k =
          (w.incr cntKey).2.keys k := by
        change (LimitKeys.put _ distinctKey _).keys k = _
        rw [put_keys_ne hk, sadd_keys_ne hk]
      by_cases hc : k = cntKey
      · subst hc
        exact incr_step rfl hsame
      · exact .same (hsame.trans (incr_keys_ne hc))
  | delete keys =>
    by_cases hk : k ∈ keys
    · exact .gone (if_pos hk)
    · exact .same (if_neg hk)

def HoldsSet (w : LimitKeys) (d : String) : Prop :=
  ∀ v, w.keys d = some v → ∃ ms, v.value = .members ms

theorem HoldsSet.congr (h : w.HoldsSet d) (hd : u.keys d = w.keys d) : u.HoldsSet d :=
  fun v hv => h v (hd ▸ hv)

theorem HoldsSet.sadd (h : w.HoldsSet d) (key member : String) :
    (w.sadd key member).2.HoldsSet d := by
  by_cases hk : d = key
  · subst hk
    intro v hv
    rw [LimitKeys.sadd] at hv
    split at hv
    · rw [put_keys, if_pos rfl] at hv
      cases hv
      exact ⟨_, rfl⟩
    · rw [put_keys, if_pos rfl] at hv
      cases hv
      exact ⟨_, rfl⟩
    · exact h v hv
  · exact h.congr (sadd_keys_ne hk member)

theorem HoldsSet.expire (h : w.HoldsSet d) (key : String) (seconds : Int) :
    (w.expire key seconds).HoldsSet d := by
  by_cases hk : d = key
  · subst hk
    intro v hv
    rw [LimitKeys.expire, put_keys, if_pos rfl, Volatile.expire] at hv
    split at hv
    · cases hv
    · obtain ⟨v', hv', rfl⟩ := Option.map_eq_some_iff.1 hv
      exact h v' (Volatile.read_some hv')
  · exact h.congr (put_keys_ne hk _)

/-- `SADD` adds to a set. -/
theorem HoldsSet.sadd_answer (h : w.HoldsSet d) (member : String) :
    (w.sadd d member).1 = some () := by
  rw [LimitKeys.sadd]
  split
  · rfl
  · rfl
  · next n e hread =>
    obtain ⟨ms, hms⟩ := h _ (Volatile.read_some hread)
    cases hms

theorem HoldsSet.scard_answer (h : w.HoldsSet d) : ∃ n, w.scard d = some n := by
  rw [scard]
  split
  · exact ⟨_, rfl⟩
  · exact ⟨_, rfl⟩
  · next n e hread =>
    obtain ⟨ms, hms⟩ := h _ (Volatile.read_some hread)
    cases hms

/-- The pipeline answers with the count of its `INCR`. -/
theorem HoldsSet.countDistinct_answer (h : w.HoldsSet d) (hne : d ≠ cntKey)
    (hcount : (w.incr cntKey).1 = some n) (member : String) (window : Int) :
    ∃ card, (w.countDistinct cntKey d member window).1 = some (n, card) := by
  have hincr : (w.incr cntKey).2.HoldsSet d := h.congr (incr_keys_ne hne)
  obtain ⟨card, hcard⟩ := ((hincr.sadd d member).expire d window).scard_answer
  refine ⟨card, ?_⟩
  simp only [countDistinct, hcount, hincr.sadd_answer member, hcard]
  rfl

end LimitKeys

def LimitCall.MayAsk (cfg : LimiterConfig) (c : LimitCall) : LimitAsk → Prop
  | .incr key => key = c.counterKey
  | .expire key seconds => key = c.counterKey ∧ seconds = c.window cfg
  | .setEx key _ => ∃ name, key = RedisAttemptStore.lockoutKey name
  | .countDistinct cntKey distinctKey _ _ =>
    cntKey = c.counterKey ∧ ∃ ip, distinctKey = RedisAttemptStore.distinctUsersKey ip
  | _ => True

/-- After a 1 a worker asks for the `EXPIRE` of that counter and for nothing else before. -/
def LimitAsk.IsDue (p : Option String) : LimitAsk → Prop
  | .expire key _ => p = some key
  | _ => p = none

/-- The protocol of the workers whose calls ask what `ok` allows. -/
def counterProtocol (ok : LimitAsk → Prop) :
    Typestate (Option String) LimitAsk (fun q => Option (LimitReply q)) where
  mayAsk p q := q.IsDue p ∧ ok q
  next _ q r := q.due r

section Programs
variable {cfg : LimiterConfig} {ok : LimitAsk → Prop}

abbrev Rests (ok : LimitAsk → Prop) (t : LimitTask β) (p : Option String) : Prop :=
  t.run.Follows (counterProtocol ok) (fun p _ => p = none) p

theorem Rests.answer (b : β) : Rests ok (pure b) none := rfl

theorem Rests.redis {f : LimitReply q → LimitTask β} (hdue : q.IsDue p) (hok : ok q)
    (hnone : q.due none = none) (hf : ∀ a, Rests ok (f a) (q.due (some a))) :
    Rests ok (redis q >>= f) p := by
  refine ⟨⟨hdue, hok⟩, fun r => ?_⟩
  cases r with
  | none => exact hnone
  | some a => exact hf a

theorem Rests.expireFirst {f : Unit → LimitTask β} (hok : ok (.expire key window))
    (hf : Rests ok (f ()) none) :
    Rests ok (expireFirst key window count >>= f) (if count = 1 then some key else none) := by
  rw [CentralOps.expireFirst]
  by_cases h : count = 1
  · rw [if_pos h, if_pos h]
    exact Rests.redis rfl hok rfl fun _ => hf
  · rw [if_neg h, if_neg h]
    exact hf

theorem Rests.only (hdue : q.IsDue none) (hok : ok q) (hnone : ∀ r, q.due r = none) :
    Rests ok (CentralOps.redis q) none := ⟨⟨hdue, hok⟩, hnone⟩

theorem Rests.lockAt (hok : ∀ s, ok (.setEx lockout s)) (auth : AuthLimits) (count : Int) :
    Rests ok (RedisAttemptStore.lockAt auth lockout count) none := by
  apply Rests.redis (q := .setEx lockout auth.lockoutSeconds) rfl (hok _) rfl
  exact fun _ => Rests.answer _

theorem Rests.lockAtLimit (hok : ∀ s, ok (.setEx (RedisAttemptStore.lockoutKey key) s))
    (auth : AuthLimits) (count : Int) :
    Rests ok (RedisAttemptStore.lockAtLimit auth key count) none := by
  rw [RedisAttemptStore.lockAtLimit]
  split
  · exact Rests.lockAt hok auth count
  · exact Rests.answer _

theorem Rests.checkAndIncrement {c : LimitCall} (h : c.window cfg = 60) (limit : Int) :
    Rests (c.MayAsk cfg) (checkAndIncrement c.counterKey limit) none := by
  have hincr : c.MayAsk cfg (.incr c.counterKey) := rfl
  apply Rests.redis (q := .incr _) rfl hincr rfl
  intro count
  apply Rests.expireFirst ⟨rfl, h.symm⟩
  split
  · exact Rests.redis (q := .ttl c.counterKey) rfl trivial rfl fun _ => Rests.answer _
  · exact Rests.answer _

theorem Rests.ends {t : LimitTask β} (h : Rests ok t none) (g : Option β → LimitResult) :
    (t.run >>= fun r => pure (g r) : LimitProgram).Follows (counterProtocol ok)
      (fun p _ => p = none) none := by
  apply Dialog.Follows.bind
  exact h.weaken fun p a hp => hp

theorem LimitCall.rests (cfg : LimiterConfig) (c : LimitCall) :
    (c.program cfg).Follows (counterProtocol (c.MayAsk cfg)) (fun p _ => p = none) none := by
  cases c with
  | registerFailure key =>
    apply Rests.ends
    apply Rests.redis (q := .ttl _) rfl trivial rfl
    intro lockoutTtl
    split
    · exact Rests.redis (q := .get _) rfl trivial rfl fun _ => Rests.answer _
    · have hincr : (registerFailure key).MayAsk cfg (.incr (RedisAttemptStore.cntKey key)) := rfl
      apply Rests.redis (q := .incr _) rfl hincr rfl
      intro count
      apply Rests.expireFirst ⟨rfl, rfl⟩
      exact Rests.lockAtLimit (fun _ => ⟨key, rfl⟩) _ _
  | registerFailureWithCardinality key ip usernameHash =>
    apply Rests.ends
    apply Rests.redis (q := .ttl _) rfl trivial rfl
    intro lockoutTtl
    split
    · exact Rests.redis (q := .get _) rfl trivial rfl fun _ => Rests.answer _
    · apply Rests.redis (q := .countDistinct ..) rfl ⟨rfl, ip, rfl⟩ rfl
      intro results
      apply Rests.expireFirst ⟨rfl, rfl⟩
      split
      · exact Rests.lockAt (fun _ => ⟨"ip:" ++ ip, ipLockoutKey_eq ip⟩) _ _
      · exact Rests.lockAtLimit (fun _ => ⟨key, rfl⟩) _ _
  | reset key => exact Rests.ends (Rests.only (q := .delete _) rfl trivial fun _ => rfl) _
  | checkCreate userId =>
    exact Rests.ends (Rests.checkAndIncrement (c := .checkCreate userId) rfl _) _
  | checkDelete userId =>
    exact Rests.ends (Rests.checkAndIncrement (c := .checkDelete userId) rfl _) _
  | check limiter tokenId =>
    exact Rests.ends (Rests.checkAndIncrement (c := .check limiter tokenId) rfl _) _
  | resetToken limiter tokenId =>
    exact Rests.ends (Rests.only (q := .delete _) rfl trivial fun _ => rfl) _

end Programs

/-- Every key without expiry has a worker that is about to set it; a counter runs out within its
window; the sets of names are sets. -/
structure CounterWorld.Armed (cfg : LimiterConfig) (w : CounterWorld) : Prop where
  armed : ∀ k, Volatile.Bare (w.redis.keys k) → ∃ i, w.pending i = some k
  within : ∀ (c : LimitCall) v e, w.redis.keys c.counterKey = some v → v.expiry = some e →
    e ≤ w.redis.now + c.window cfg
  sets : ∀ ip, w.redis.HoldsSet (RedisAttemptStore.distinctUsersKey ip)

section Step
variable {cfg : LimiterConfig} {w u : CounterWorld} {q : LimitAsk} {c : LimitCall} {k : String}

theorem exec_now (w : LimitKeys) (q : LimitAsk) : (w.exec q).2.now = w.now := by
  cases q with
  | get key =>
    rw [LimitKeys.exec]
    split <;> rfl
  | incr key => exact LimitKeys.incr_now w key
  | setEx key seconds =>
    change (w.setEx key seconds).2.now = w.now
    rw [LimitKeys.setEx]
    split <;> rfl
  | countDistinct cntKey distinctKey usernameHash window =>
    exact (LimitKeys.sadd_now _ _ _).trans (LimitKeys.incr_now w cntKey)
  | _ => rfl

theorem within_exec (hok : c.MayAsk cfg q) (d : LimitCall) {s : LimitKeys}
    (h : ∀ v e, s.keys d.counterKey = some v → v.expiry = some e → e ≤ s.now + d.window cfg)
    (hv : (s.exec q).2.keys d.counterKey = some v) (he : v.expiry = some e) :
    e ≤ s.now + d.window cfg := by
  obtain hsame | hgone | ⟨hcounts, hread, hbare⟩ | ⟨hold, hnew⟩ | ⟨hexpires, huntil⟩ :=
    s.exec_step q d.counterKey
  · exact h v e (hsame ▸ hv) he
  · rw [hgone] at hv
    cases hv
  · obtain ⟨v', hv'⟩ := hbare
    rw [hv'] at hv
    cases hv
    cases he
  · rw [hnew] at hv
    cases hv
    exact h _ e hold he
  · obtain ⟨e', he', hle⟩ := huntil v hv
    rw [he] at he'
    cases he'
    cases q with
    | expire key seconds =>
      obtain ⟨hkey, hseconds⟩ := Prod.mk.inj (Option.some.inj hexpires)
      obtain ⟨hcounter, hwindow⟩ := hok
      rw [LimitCall.window_eq cfg (hkey.symm.trans hcounter), ← hwindow, hseconds]
      exact hle
    | setEx key seconds =>
      obtain ⟨name, hname⟩ := hok
      obtain ⟨hkey, -⟩ := Prod.mk.inj (Option.some.inj hexpires)
      exact absurd (hkey.symm.trans hname) (d.counterKey_ne_lockout name)
    | countDistinct cntKey distinctKey usernameHash window =>
      obtain ⟨-, ip, hip⟩ := hok
      obtain ⟨hkey, -⟩ := Prod.mk.inj (Option.some.inj hexpires)
      exact absurd (hkey.symm.trans hip) (d.counterKey_ne_distinct ip)
    | _ => cases hexpires

theorem holdsSet_exec (hok : c.MayAsk cfg q) (ip : String) {s : LimitKeys}
    (h : s.HoldsSet (RedisAttemptStore.distinctUsersKey ip)) :
    (s.exec q).2.HoldsSet (RedisAttemptStore.distinctUsersKey ip) := by
  cases q with
  | ttl key => exact h
  | get key =>
    rw [LimitKeys.exec]
    split <;> exact h
  | incr key =>
    obtain rfl : key = c.counterKey := hok
    exact h.congr (LimitKeys.incr_keys_ne (c.counterKey_ne_distinct ip).symm)
  | expire key seconds => exact h.expire key seconds
  | setEx key seconds =>
    obtain ⟨name, rfl⟩ := hok
    change (s.setEx _ seconds).2.HoldsSet _
    rw [LimitKeys.setEx]
    split
    · exact h
    · exact h.congr (LimitKeys.put_keys_ne (lockout_ne_distinct name ip).symm _)
  | countDistinct cntKey distinctKey usernameHash window =>
    obtain ⟨rfl, -⟩ := hok
    have hincr := h.congr (LimitKeys.incr_keys_ne (w := s) (c.counterKey_ne_distinct ip).symm)
    exact (hincr.sadd distinctKey usernameHash).expire distinctKey window
  | delete keys =>
    intro v hv
    change (if _ ∈ keys then none else s.keys _) = some v at hv
    split at hv
    · cases hv
    · exact h v hv

theorem bare_exec {s : LimitKeys} (h : Volatile.Bare ((s.exec q).2.keys k)) :
    (Volatile.Bare (s.keys k) ∧ ∀ seconds, q ≠ .expire k seconds) ∨
      (q.counts = some k ∧ s.read k = none) := by
  have hexpire : ∀ seconds, q ≠ .expire k seconds := by
    rintro seconds rfl
    change Volatile.Bare ((s.put k _).keys k) at h
    rw [LimitKeys.put_keys, if_pos rfl] at h
    exact Volatile.not_bare_expire h
  obtain hsame | hgone | ⟨hcounts, hread, -⟩ | ⟨hold, hnew⟩ | ⟨-, huntil⟩ := s.exec_step q k
  · exact .inl ⟨hsame ▸ h, hexpire⟩
  · exact absurd (hgone ▸ h) Volatile.not_bare_none
  · exact .inr ⟨hcounts, hread⟩
  · obtain ⟨value, hvalue⟩ := h
    rw [hnew] at hvalue
    have hnone := congrArg Volatile.expiry (Option.some.inj hvalue)
    exact .inl ⟨⟨_, hold.trans (congrArg some (Volatile.ext rfl hnone))⟩, hexpire⟩
  · exact absurd h huntil.not_bare

/-- Who made a counter has seen the 1. -/
theorem due_exec (hok : c.MayAsk cfg q) {s : LimitKeys}
    (hsets : ∀ ip, s.HoldsSet (RedisAttemptStore.distinctUsersKey ip))
    (hcounts : q.counts = some k) (hread : s.read k = none) : q.due (s.exec q).1 = some k := by
  have hincr : (s.incr k).1 = some 1 := by
    rw [LimitKeys.incr, hread]
  cases q with
  | incr key =>
    obtain rfl : key = k := Option.some.inj hcounts
    change LimitAsk.due (.incr key) (s.incr key).1 = _
    rw [hincr]
    rfl
  | countDistinct cntKey distinctKey usernameHash window =>
    obtain rfl : cntKey = k := Option.some.inj hcounts
    obtain ⟨hcounter, ip, rfl⟩ := hok
    have hne : RedisAttemptStore.distinctUsersKey ip ≠ cntKey :=
      hcounter ▸ (c.counterKey_ne_distinct ip).symm
    obtain ⟨card, hcard⟩ := (hsets ip).countDistinct_answer hne hincr usernameHash window
    change LimitAsk.due (.countDistinct ..) (s.countDistinct ..).1 = _
    rw [hcard]
    rfl
  | _ => cases hcounts

theorem due_none (q : LimitAsk) : q.due none = none := by
  cases q <;> rfl

/-- A worker that asks for something else than an `EXPIRE` has none to ask for. -/
theorem not_due (hdue : q.IsDue p) (hq : ∀ seconds, q ≠ .expire k seconds) : p ≠ some k := by
  cases q with
  | expire key seconds =>
    rintro rfl
    obtain rfl : k = key := Option.some.inj hdue
    exact hq seconds rfl
  | _ =>
    rw [show p = none from hdue]
    exact Option.some_ne_none k ∘ Eq.symm

namespace CounterWorld

theorem Armed.idle : Armed cfg {} where
  armed _ h := absurd h Volatile.not_bare_none
  within _ _ _ h := nomatch h
  sets _ _ h := nomatch h

/-- What the commands that the law lets fail keep. -/
theorem Armed.reply (h : w.Armed cfg) (hok : c.MayAsk cfg q) (hdue : q.IsDue (w.pending i))
    (hlaw : ArmsCounter i w q o) (hr : (r, u) = w.reply i o q) : u.Armed cfg := by
  have hothers : ∀ {k j p}, j ≠ i → w.pending j = some k →
      Function.update w.pending i p j = some k := by
    intro k j p hj hpending
    rw [Function.update_of_ne hj, hpending]
  have hkept : ∀ {k p}, Volatile.Bare (w.redis.keys k) → (∀ seconds, q ≠ .expire k seconds) →
      ∃ j, Function.update w.pending i p j = some k := by
    intro k p hbare hq
    obtain ⟨j, hj⟩ := h.armed k hbare
    have hji : j ≠ i := by
      rintro rfl
      exact not_due hdue hq hj
    exact ⟨j, hothers hji hj⟩
  cases o with
  | answered =>
    cases hr
    constructor
    · intro k hbare
      obtain ⟨hold, hq⟩ | ⟨hcounts, hread⟩ := bare_exec hbare
      · exact hkept hold hq
      · exact ⟨i, (Function.update_self ..).trans (due_exec hok h.sets hcounts hread)⟩
    · intro d v e hv he
      rw [exec_now]
      exact within_exec hok d (h.within d) hv he
    · exact fun ip => holdsSet_exec hok ip (h.sets ip)
  | refused =>
    cases hr
    constructor
    · intro k hbare
      by_cases hq : ∀ seconds, q ≠ .expire k seconds
      · exact hkept hbare hq
      · obtain ⟨seconds, hseconds⟩ := not_forall.1 hq
        obtain rfl := not_not.1 hseconds
        obtain hgone | ⟨j, hji, hj⟩ := hlaw
        · exact absurd hbare hgone
        · exact ⟨j, hothers hji hj⟩
    · exact h.within
    · exact h.sets
  | lost =>
    cases hr
    constructor
    · intro k hbare
      obtain ⟨hold, hq⟩ | ⟨hcounts, hread⟩ := bare_exec hbare
      · exact hkept hold hq
      · cases q with
        | incr key =>
          obtain rfl : key = k := Option.some.inj hcounts
          obtain hfound | ⟨j, hji, hj⟩ := hlaw
          · exact absurd hread hfound
          · exact ⟨j, hothers hji hj⟩
        | countDistinct cntKey distinctKey usernameHash window =>
          obtain rfl : cntKey = k := Option.some.inj hcounts
          obtain hfound | ⟨j, hji, hj⟩ := hlaw
          · exact absurd hread hfound
          · exact ⟨j, hothers hji hj⟩
        | _ => cases hcounts
    · intro d v e hv he
      rw [exec_now]
      exact within_exec hok d (h.within d) hv he
    · exact fun ip => holdsSet_exec hok ip (h.sets ip)

/-- Every counter without expiry has a worker that is about to set it. -/
def Covered (w : CounterWorld) : Prop :=
  ∀ k, Volatile.Bare (w.redis.keys k) → ∃ i, w.pending i = some k

theorem not_covered (hbare : Volatile.Bare (s.keys k))
    (hothers : ¬ ∃ j, j ≠ i ∧ w.pending j = some k) :
    ¬ Covered ⟨s, Function.update w.pending i none⟩ := by
  intro hcovered
  obtain ⟨j, hj⟩ := hcovered k hbare
  change Function.update w.pending i none j = some k at hj
  by_cases hji : j = i
  · rw [hji, Function.update_self] at hj
    cases hj
  · rw [Function.update_of_ne hji] at hj
    exact hothers ⟨j, hji, hj⟩

/-- What fails outside the law leaves a counter that nobody will arm. -/
theorem arms_of_covered (hok : c.MayAsk cfg q) (h : (w.reply i o q).2.Covered) :
    ArmsCounter i w q o := by
  by_contra hlaw
  cases q with
  | incr key =>
    cases o with
    | lost =>
      obtain ⟨hread, hothers⟩ := not_or.1 hlaw
      apply not_covered _ hothers h
      change Volatile.Bare ((w.redis.incr key).2.keys key)
      rw [LimitKeys.incr, not_not.1 hread, LimitKeys.put_keys, if_pos rfl]
      exact ⟨_, rfl⟩
    | _ => exact hlaw trivial
  | countDistinct cntKey distinctKey usernameHash window =>
    cases o with
    | lost =>
      obtain ⟨hread, hothers⟩ := not_or.1 hlaw
      apply not_covered _ hothers h
      obtain ⟨rfl, ip, rfl⟩ := hok
      have hne := c.counterKey_ne_distinct ip
      change Volatile.Bare ((LimitKeys.put _ _ _).keys c.counterKey)
      rw [LimitKeys.put_keys_ne hne, LimitKeys.sadd_keys_ne hne, LimitKeys.incr, not_not.1 hread,
        LimitKeys.put_keys, if_pos rfl]
      exact ⟨_, rfl⟩
    | _ => exact hlaw trivial
  | expire key seconds =>
    cases o with
    | refused =>
      obtain ⟨hbare, hothers⟩ := not_or.1 hlaw
      exact not_covered (not_not.1 hbare) hothers h
    | _ => exact hlaw trivial
  | _ => exact hlaw trivial

theorem reply_pending (hr : (r, u) = w.reply i o q) :
    u.pending i = q.due r ∧ ∀ j, j ≠ i → u.pending j = w.pending j := by
  cases o with
  | answered =>
    cases hr
    exact ⟨Function.update_self .., fun j hj => Function.update_of_ne hj ..⟩
  | refused =>
    cases hr
    exact ⟨(Function.update_self ..).trans (due_none q).symm,
      fun j hj => Function.update_of_ne hj ..⟩
  | lost =>
    cases hr
    exact ⟨(Function.update_self ..).trans (due_none q).symm,
      fun j hj => Function.update_of_ne hj ..⟩

theorem Armed.tick (h : w.Armed cfg) (ht : w.redis.now ≤ t) :
    Armed cfg { w with redis := { w.redis with now := t } } where
  armed := h.armed
  within d v e hv he := (h.within d v e hv he).trans (add_le_add_left ht _)
  sets := h.sets

end CounterWorld

end Step

section Runs
variable {cfg : LimiterConfig} {x y : LimitCrew}

def AnyAsk (cfg : LimiterConfig) (q : LimitAsk) : Prop := ∃ c : LimitCall, c.MayAsk cfg q

theorem reached_phased
    (h : Crew.Reaches (limiterRules cfg anyCall ArmsCounter) LimitCrew.idle x) :
    Crew.Phased (counterProtocol (AnyAsk cfg)) CounterWorld.pending none
      (CounterWorld.Armed cfg) x := by
  apply h.phased
  · intro s i c _
    exact (c.rests cfg).mono fun p q hq => ⟨hq.1, c, hq.2⟩
  · rintro i w q r u hw ⟨hdue, c, hok⟩ ⟨o, hlaw, hr⟩
    exact ⟨hw.reply hok hdue hlaw hr, CounterWorld.reply_pending hr⟩
  · rintro w u hw ⟨t, ht, rfl⟩
    exact ⟨hw.tick ht, fun _ => rfl⟩
  · exact ⟨.idle, fun i => rfl⟩

theorem LimitCall.asks (cfg : LimiterConfig) (c : LimitCall) :
    (c.program cfg).Asks (c.MayAsk cfg) := (c.rests cfg).asks fun _ _ h => h.2

theorem asks_of_running {calls : LimitCall → Prop} {allowed : LimitLaw}
    (h : Crew.Reaches (limiterRules cfg calls allowed) LimitCrew.idle x)
    (hi : x.running i = some (c, t)) : t.Asks (c.MayAsk cfg) := by
  have hunder : Crew.Underway (limiterRules cfg calls allowed) x :=
    h.underway fun i c t hi => nomatch hi
  exact (c.asks cfg).leaves (hunder i c t hi)

theorem until_of_unused
    (h : Crew.Reaches (limiterRules cfg anyCall ArmsCounter) LimitCrew.idle x) (c : LimitCall)
    (hunused : ∀ i c' t, x.running i = some (c', t) → c'.counterKey ≠ c.counterKey) :
    Volatile.Until (x.shared.redis.keys c.counterKey) (x.shared.redis.now + c.window cfg) := by
  obtain ⟨hw, hphases⟩ := reached_phased h
  intro v hv
  cases he : v.expiry with
  | some e => exact ⟨e, rfl, hw.within c v e hv he⟩
  | none =>
    have hbare : Volatile.Bare (x.shared.redis.keys c.counterKey) :=
      ⟨v.value, hv.trans (congrArg some (Volatile.ext rfl he))⟩
    obtain ⟨i, hi⟩ := hw.armed c.counterKey hbare
    have hphase := hphases i
    rw [hi] at hphase
    cases hrun : x.running i with
    | none =>
      rw [hrun] at hphase
      cases hphase
    | some run =>
      obtain ⟨c', t⟩ := run
      rw [hrun] at hphase
      have hasks := asks_of_running h hrun
      cases t with
      | done a => cases hphase
      | ask q next =>
        have hdue : q.IsDue (some c.counterKey) := hphase.1.1
        cases q with
        | expire key seconds =>
          have hkey : c'.counterKey = c.counterKey :=
            hasks.1.1.symm.trans (Option.some.inj hdue).symm
          exact absurd hkey (hunused i c' _ hrun)
        | _ => cases hdue

/-- The commands of another call leave a counter to run out. -/
theorem until_exec {c d : LimitCall} {s : LimitKeys} (hok : c.MayAsk cfg q)
    (hne : c.counterKey ≠ d.counterKey) (h : Volatile.Until (s.keys d.counterKey) t) :
    Volatile.Until ((s.exec q).2.keys d.counterKey) t := by
  obtain hsame | hgone | ⟨hcounts, -, -⟩ | ⟨hold, hnew⟩ | ⟨hexpires, -⟩ :=
    s.exec_step q d.counterKey
  · exact hsame ▸ h
  · exact hgone ▸ Volatile.until_none t
  · cases q with
    | incr key => exact absurd (hok.symm.trans (Option.some.inj hcounts)) hne
    | countDistinct cntKey distinctKey usernameHash window =>
      exact absurd (hok.1.symm.trans (Option.some.inj hcounts)) hne
    | _ => cases hcounts
  · intro v hv
    rw [hnew] at hv
    cases hv
    obtain ⟨e, he, hle⟩ := h _ hold
    exact ⟨e, he, hle⟩
  · cases q with
    | expire key seconds =>
      obtain ⟨hkey, -⟩ := Prod.mk.inj (Option.some.inj hexpires)
      exact absurd (hok.1.symm.trans hkey) hne
    | setEx key seconds =>
      obtain ⟨name, hname⟩ := hok
      obtain ⟨hkey, -⟩ := Prod.mk.inj (Option.some.inj hexpires)
      exact absurd (hkey.symm.trans hname) (d.counterKey_ne_lockout name)
    | countDistinct cntKey distinctKey usernameHash window =>
      obtain ⟨-, ip, hip⟩ := hok
      obtain ⟨hkey, -⟩ := Prod.mk.inj (Option.some.inj hexpires)
      exact absurd (hkey.symm.trans hip) (d.counterKey_ne_distinct ip)
    | _ => cases hexpires

theorem until_reached {c : LimitCall}
    (hx : ∀ i c' t, x.running i = some (c', t) →
      t.Asks (c'.MayAsk cfg) ∧ c'.counterKey ≠ c.counterKey)
    (h : Crew.Reaches (limiterRules cfg (fun c' => c'.counterKey ≠ c.counterKey) anyOutcome) x y)
    (huntil : Volatile.Until (x.shared.redis.keys c.counterKey) t) :
    Volatile.Until (y.shared.redis.keys c.counterKey) t := by
  have hphased : Crew.Phased
      (⟨fun _ q => ∃ c' : LimitCall, c'.MayAsk cfg q ∧ c'.counterKey ≠ c.counterKey,
        fun p _ _ => p⟩ : Typestate Unit LimitAsk (fun q => Option (LimitReply q)))
      (fun _ _ => ()) () (fun w => Volatile.Until (w.redis.keys c.counterKey) t) y := by
    apply h.phased
    · exact fun s i c' hc' => ((c'.asks cfg).mono fun q hq => ⟨c', hq, hc'⟩).follows
    · rintro i w q r u hw ⟨c', hok, hne⟩ ⟨o, -, hr⟩
      refine ⟨?_, rfl, fun _ _ => rfl⟩
      cases o with
      | refused =>
        cases hr
        exact hw
      | answered =>
        cases hr
        exact until_exec hok hne hw
      | lost =>
        cases hr
        exact until_exec hok hne hw
    · rintro w u hw ⟨t, -, rfl⟩
      exact ⟨hw, fun _ => rfl⟩
    · refine ⟨huntil, fun i => ?_⟩
      cases hi : x.running i with
      | none => rfl
      | some run =>
        obtain ⟨hasks, hne⟩ := hx i run.1 run.2 hi
        exact (hasks.mono fun q hq => ⟨run.1, hq, hne⟩).follows
  exact hphased.1

theorem countersHeal_arms (cfg : LimiterConfig) : CountersHeal cfg ArmsCounter where
  expiring x hx hquiet key v hv hnone := by
    obtain ⟨hw, hphases⟩ := reached_phased hx
    obtain ⟨i, hi⟩ := hw.armed key ⟨v.value, hv.trans (congrArg some (Volatile.ext rfl hnone))⟩
    have hphase := hphases i
    rw [hquiet i] at hphase
    exact Option.some_ne_none key (hi.symm.trans hphase)
  restarts x y c hx hunused hy hlt := by
    have huntil := until_of_unused hx c hunused
    exact (until_reached (fun i c' t hi => ⟨asks_of_running hx hi, hunused i c' t hi⟩) hy
      huntil).read_eq_none hlt

theorem covered_iff (hx : Crew.Reaches (limiterRules cfg anyCall ArmsCounter) LimitCrew.idle x)
    (hi : x.running i = some (c, .ask q next)) (o : LimitOutcome) :
    (x.shared.reply i o q).2.Covered ↔ ArmsCounter i x.shared q o := by
  have hok : c.MayAsk cfg q := (asks_of_running hx hi).1
  obtain ⟨hw, hphases⟩ := reached_phased hx
  have hphase := hphases i
  rw [hi] at hphase
  constructor
  · exact CounterWorld.arms_of_covered hok
  · exact fun hlaw => (hw.reply hok hphase.1.1 hlaw rfl).armed

end Runs

/-- The law leaves out just the outcomes after which a counter without expiry is left to nobody. -/
def ArmsExactly (cfg : LimiterConfig) : Prop :=
  ∀ x i c q next o, Crew.Reaches (limiterRules cfg anyCall ArmsCounter) LimitCrew.idle x →
    x.running i = some (c, .ask q next) →
    ((x.shared.reply i o q).2.Covered ↔ ArmsCounter i x.shared q o)

/-- Counters heal in every run whose commands meet the law, and the law is as weak as can be. -/
theorem counters_heal (cfg : LimiterConfig) : CountersHeal cfg ArmsCounter ∧ ArmsExactly cfg :=
  ⟨countersHeal_arms cfg, fun _ _ _ _ _ o hx hi => covered_iff hx hi o⟩

/-- The defaults of the settings. -/
def defaultLimits : LimiterConfig where
  auth := ⟨5, 300, 300⟩

/-- A worker that dies with the answer of its `INCR`. -/
theorem lost_answer_reached : Crew.Reaches (limiterRules defaultLimits anyCall anyOutcome)
    LimitCrew.idle
    ⟨(CounterWorld.reply 0 {} .lost (.incr "pat_ratelimit:token:5")).2, fun _ => none⟩ := by
  apply Crew.reaches_of_ended_call (i := 0) (c := .check .pat 5) rfl trivial
  exact .ask ⟨.lost, trivial, rfl⟩ .done

theorem counter_left_for_ever : ¬ CountersHeal defaultLimits anyOutcome := by
  intro hheal
  exact hheal.expiring _ lost_answer_reached (fun _ => rfl) "pat_ratelimit:token:5" _ rfl rfl

end CentralOps
