import CentralOps.Lib.Dialog
import CentralOps.Inflight.Accumulator

namespace CentralOps
set_option autoImplicit true

/-- What the first presence pipeline reads: `HLEN` of each rule, and `HMGET` of its tokens. -/
structure SeenView where
  size : Int → Nat
  known : Int → String → Bool

structure SeenWrite where
  ruleId : Int
  tokens : List String
  ttl : Int

structure LegWrite where
  key : String
  legs : List (Nat × Obj)
  ttl : Int

structure WindowBump where
  key : String
  bucket : Int
  hits : Nat
  ttl : Int

/-- The arguments of `DetectionRepository.record`, and the evidence that travels beside them. -/
structure RecordCall where
  organizationId : Int
  dedupKey : String
  severityId : Int
  ruleId : String
  ruleName : String
  integrationId : Option Int
  suppressionWindowSeconds : Int
  evidence : Obj

/-- The row that `record` returns, as `refresh` has read it. -/
structure RecordedRow where
  id : Nat
  count : Nat

structure WatchState where
  lastCycle : Option Int
  seen : List (String × Int)
  alerted : List (String × Nat)

/-- Where the flush of a cycle and the tick of an absence rule leave the process. A pipeline that
writes carries what it was decided on, the warning of the cap the keys that it is about. -/
inductive InflightAsk where
  | clock
  | readSeen (org : Int) (asked : List (Int × List String))
  | writeSeen (org : Int) (view : SeenView) (writes : List SeenWrite) (ts : Int)
  | writeLegs (writes : List LegWrite)
  | readLegs (keys : List String)
  | dropLegs (closed : List (String × List (Nat × Obj)))
  | bumpWindows (bumps : List WindowBump)
  | readWindows (reads : List (String × List Int))
  | warnFlushCap (cut : List String)
  | openSession
  | closeSession
  | record (call : RecordCall)
  | tickLock (ruleId : Int)
  | readWatch (org ruleId : Int)
  | lagging (org : Int) (stream : String) (window : Int) (now : Rat)
  | forget (org ruleId : Int) (tokens : List (String × Int)) (alerted : List String)
  | closeDetection (id : Nat)
  | clearAlerted (org ruleId : Int) (tokens : List String)
  | markAlerted (org ruleId : Int) (ids : List (String × Nat)) (ttl : Int)
  | writeTick (org ruleId : Int) (ttl : Int)

/-- `none` where the call raises. -/
abbrev InflightReply : InflightAsk → Type
  | .clock => Rat
  | .readSeen _ _ => Option SeenView
  | .writeSeen _ _ _ _ => Option Unit
  | .writeLegs _ => Option Unit
  | .readLegs _ => Option (String → List (Nat × Obj))
  | .dropLegs _ => Option Unit
  | .bumpWindows _ => Option Unit
  | .readWindows _ => Option (String → Int → Option Nat)
  | .warnFlushCap _ => Unit
  | .openSession => Option Unit
  | .closeSession => Option Unit
  | .record _ => Option RecordedRow
  | .tickLock _ => Bool
  | .readWatch _ _ => Option WatchState
  | .lagging _ _ _ _ => Bool
  | .forget _ _ _ _ => Option Unit
  | .closeDetection _ => Bool
  | .clearAlerted _ _ _ => Option Unit
  | .markAlerted _ _ _ _ => Option Unit
  | .writeTick _ _ _ => Option Unit

abbrev InflightTask := Dialog InflightAsk InflightReply

def ask (q : InflightAsk) : InflightTask (InflightReply q) := Dialog.query q

end CentralOps
