import CentralOps.Lib.Typestate
import CentralOps.Lib.Volatile

namespace CentralOps
set_option autoImplicit true

/-- What a key of the limiters may hold: a counter or a mark, or a set. -/
inductive LimitValue where
  | number (n : Int)
  | members (ms : List String)

inductive LimitAsk where
  | ttl (key : String)
  | get (key : String)
  | incr (key : String)
  | expire (key : String) (seconds : Int)
  /-- `SET key 1 EX seconds`. -/
  | setEx (key : String) (seconds : Int)
  /-- The pipeline `INCR`, `SADD`, `EXPIRE`, `SCARD`. -/
  | countDistinct (cntKey distinctKey usernameHash : String) (window : Int)
  | delete (keys : List String)

abbrev LimitReply : LimitAsk → Type
  | .ttl _ => Int
  | .get _ => Option Int
  | .incr _ => Int
  | .expire _ _ => Unit
  | .setEx _ _ => Unit
  | .countDistinct .. => Int × Int
  | .delete _ => Unit

structure LimitKeys where
  now : Rat := 0
  keys : String → Option (Volatile LimitValue) := fun _ => none

namespace LimitKeys

def read (w : LimitKeys) (key : String) : Option (Volatile LimitValue) :=
  Volatile.read w.now (w.keys key)

def put (w : LimitKeys) (key : String) (k : Option (Volatile LimitValue)) : LimitKeys :=
  { w with keys := Function.update w.keys key k }

/-- `INCR` keeps the expiry; a set is of the wrong type. -/
def incr (w : LimitKeys) (key : String) : Option Int × LimitKeys :=
  match w.read key with
  | none => (some 1, w.put key (some ⟨.number 1, none⟩))
  | some ⟨.number n, e⟩ => (some (n + 1), w.put key (some ⟨.number (n + 1), e⟩))
  | some ⟨.members _, _⟩ => (none, w)

def sadd (w : LimitKeys) (key member : String) : Option Unit × LimitKeys :=
  match w.read key with
  | none => (some (), w.put key (some ⟨.members [member], none⟩))
  | some ⟨.members ms, e⟩ =>
    (some (), w.put key (some ⟨.members (if member ∈ ms then ms else member :: ms), e⟩))
  | some ⟨.number _, _⟩ => (none, w)

def expire (w : LimitKeys) (key : String) (seconds : Int) : LimitKeys :=
  w.put key (Volatile.expire w.now seconds (w.keys key))

def scard (w : LimitKeys) (key : String) : Option Int :=
  match w.read key with
  | none => some 0
  | some ⟨.members ms, _⟩ => some ms.length
  | some ⟨.number _, _⟩ => none

def setEx (w : LimitKeys) (key : String) (seconds : Int) : Option Unit × LimitKeys :=
  if seconds ≤ 0 then (none, w)
  else (some (), w.put key (some ⟨.number 1, some (w.now + seconds)⟩))

def delete (w : LimitKeys) (keys : List String) : LimitKeys :=
  { w with keys := fun k => if k ∈ keys then none else w.keys k }

/-- `INCR cnt`, `SADD distinct hash`, `EXPIRE distinct window` and `SCARD distinct`, one after the
other; it raises where one of them does. -/
def countDistinct (w : LimitKeys) (cntKey distinctKey usernameHash : String) (window : Int) :
    Option (Int × Int) × LimitKeys :=
  let counted := w.incr cntKey
  let added := counted.2.sadd distinctKey usernameHash
  let left := added.2.expire distinctKey window
  ((do
    let count ← counted.1
    added.1
    let distinct ← left.scard distinctKey
    pure (count, distinct)), left)

/-- What Redis answers, `none` for an error, and the keys that it leaves. -/
def exec (w : LimitKeys) : (q : LimitAsk) → Option (LimitReply q) × LimitKeys
  | .ttl key => (some (Volatile.ttl w.now (w.keys key)), w)
  | .get key =>
    match w.read key with
    | none => (some none, w)
    | some ⟨.number n, _⟩ => (some (some n), w)
    | some ⟨.members _, _⟩ => (none, w)
  | .incr key => w.incr key
  | .expire key seconds => (some (), w.expire key seconds)
  | .setEx key seconds => w.setEx key seconds
  | .countDistinct cntKey distinctKey usernameHash window =>
    w.countDistinct cntKey distinctKey usernameHash window
  | .delete keys => (some (), w.delete keys)

end LimitKeys

/-- A program over commands that may raise: no answer ends it. -/
abbrev LimitTask := OptionT (Dialog LimitAsk (fun q => Option (LimitReply q)))

def redis (q : LimitAsk) : LimitTask (LimitReply q) := OptionT.mk (Dialog.query q)

/-- The arguments of `_RedisAttemptStore`. -/
structure AuthLimits where
  failureLimit : Int
  failureWindow : Int
  lockoutSeconds : Int

/-- `_MAX_DISTINCT_USERS_PER_IP`. -/
def maxDistinctUsersPerIp : Int := 50

namespace RedisAttemptStore

def cntKey (key : String) : String := "auth_fail_cnt:" ++ key

def lockoutKey (key : String) : String := "auth_lockout:" ++ key

def ipLockoutKey (ip : String) : String := "auth_lockout:ip:" ++ ip

def distinctUsersKey (ip : String) : String := "auth:ip-distinct-users:" ++ ip

end RedisAttemptStore

/-- `if count == 1: expire(key, window)`. -/
def expireFirst (key : String) (window count : Int) : LimitTask Unit :=
  if count = 1 then redis (.expire key window) else pure ()

namespace RedisAttemptStore

/-- `retry_after`, and `retry_after_ip_lockout` on the key of the ip. -/
def retryAfter (lockout : String) : LimitTask (Option Int) := do
  let ttl : Int ← redis (.ttl lockout)
  pure (if 0 < ttl then some ttl else none)

def lockAt (cfg : AuthLimits) (lockout : String) (count : Int) : LimitTask (Int × Option Int) := do
  redis (.setEx lockout cfg.lockoutSeconds)
  pure (count, some cfg.lockoutSeconds)

def lockAtLimit (cfg : AuthLimits) (key : String) (count : Int) : LimitTask (Int × Option Int) :=
  if cfg.failureLimit ≤ count then lockAt cfg (lockoutKey key) count else pure (count, none)

def lockedOut (key : String) (lockoutTtl : Int) : LimitTask (Int × Option Int) := do
  let cntRaw : Option Int ← redis (.get (cntKey key))
  pure (cntRaw.getD 0, some lockoutTtl)

def registerFailure (cfg : AuthLimits) (key : String) : LimitTask (Int × Option Int) := do
  let lockoutTtl : Int ← redis (.ttl (lockoutKey key))
  if 0 < lockoutTtl then lockedOut key lockoutTtl
  else
    let count : Int ← redis (.incr (cntKey key))
    expireFirst (cntKey key) cfg.failureWindow count
    lockAtLimit cfg key count

def registerFailureWithCardinality (cfg : AuthLimits) (key ip usernameHash : String) :
    LimitTask (Int × Option Int) := do
  let lockoutTtl : Int ← redis (.ttl (lockoutKey key))
  if 0 < lockoutTtl then lockedOut key lockoutTtl
  else
    let results : Int × Int ←
      redis (.countDistinct (cntKey key) (distinctUsersKey ip) usernameHash cfg.failureWindow)
    expireFirst (cntKey key) cfg.failureWindow results.1
    if maxDistinctUsersPerIp < results.2 then lockAt cfg (ipLockoutKey ip) results.1
    else lockAtLimit cfg key results.1

def reset (key : String) : LimitTask Unit := redis (.delete [cntKey key, lockoutKey key])

end RedisAttemptStore

/-- `_redis_check_and_increment` inside its `try`. -/
def checkAndIncrement (fullKey : String) (limit : Int) : LimitTask (Option Int) := do
  let count : Int ← redis (.incr fullKey)
  expireFirst fullKey 60 count
  if limit < count then
    let ttl : Int ← redis (.ttl fullKey)
    pure (some (max 1 ttl))
  else pure none

/-- The two instances of `TokenRateLimiter`, apart by their `key_prefix`. -/
inductive TokenLimiter where
  | pat | ingest
  deriving DecidableEq

def TokenLimiter.keyPrefix : TokenLimiter → String
  | .pat => "pat_ratelimit"
  | .ingest => "ingest_ratelimit"

/-- The arguments of the limiters. -/
structure LimiterConfig where
  auth : AuthLimits
  maxCreates : Int := 30
  maxDeletes : Int := 5
  maxRequests : TokenLimiter → Int := fun l => match l with | .pat => 60 | .ingest => 600

inductive LimitCall where
  | registerFailure (key : String)
  | registerFailureWithCardinality (key ip usernameHash : String)
  | reset (key : String)
  | checkCreate (userId : Int)
  | checkDelete (userId : Int)
  | check (limiter : TokenLimiter) (tokenId : Int)
  | resetToken (limiter : TokenLimiter) (tokenId : Int)

namespace LimitCall

def counterKey : LimitCall → String
  | .registerFailure key | .registerFailureWithCardinality key _ _ | .reset key =>
    RedisAttemptStore.cntKey key
  | .checkCreate userId => "integ_ratelimit:" ++ ("create:" ++ toString userId)
  | .checkDelete userId => "integ_ratelimit:" ++ ("delete:" ++ toString userId)
  | .check limiter tokenId | .resetToken limiter tokenId =>
    limiter.keyPrefix ++ ":" ++ ("token:" ++ toString tokenId)

/-- The window of a counter. -/
def window (cfg : LimiterConfig) : LimitCall → Int
  | .registerFailure _ | .registerFailureWithCardinality .. | .reset _ => cfg.auth.failureWindow
  | .checkCreate _ | .checkDelete _ | .check .. | .resetToken .. => 60

end LimitCall

/-- What the callers are answered: `none` where a failure raises; the checks catch it. -/
inductive LimitResult where
  | failure (r : Option (Int × Option Int))
  | done (r : Option Unit)
  | check (retryAfter : Option Int)

abbrev LimitProgram := Dialog LimitAsk (fun q => Option (LimitReply q)) LimitResult

/-- `except Exception: return None`. -/
def caught (t : LimitTask (Option Int)) : LimitProgram := do
  let r : Option (Option Int) ← t.run
  pure (.check (r.getD none))

def LimitCall.program (cfg : LimiterConfig) (c : LimitCall) : LimitProgram :=
  match c with
  | .registerFailure key => do
    let r : Option (Int × Option Int) ← (RedisAttemptStore.registerFailure cfg.auth key).run
    pure (.failure r)
  | .registerFailureWithCardinality key ip usernameHash => do
    let r : Option (Int × Option Int) ←
      (RedisAttemptStore.registerFailureWithCardinality cfg.auth key ip usernameHash).run
    pure (.failure r)
  | .reset key => do
    let r : Option Unit ← (RedisAttemptStore.reset key).run
    pure (.done r)
  | .checkCreate _ => caught (checkAndIncrement c.counterKey cfg.maxCreates)
  | .checkDelete _ => caught (checkAndIncrement c.counterKey cfg.maxDeletes)
  | .check limiter _ => caught (checkAndIncrement c.counterKey (cfg.maxRequests limiter))
  | .resetToken _ _ => do
    let _ : Option Unit ← (redis (.delete [c.counterKey])).run
    pure (.done (some ()))

end CentralOps
