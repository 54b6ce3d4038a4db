import CentralOps.Enrich.Cache
import CentralOps.Lib.Dialog

namespace CentralOps
set_option autoImplicit true

/-- How `resolve` of a provider ends. -/
inductive ResolveReply where
  | timeout
  | raised
  | ok (resolved : List (String × Answer))

inductive SourceReply where
  | lookupError
  | raised
  | ok

/-- Where `resolve_remote` awaits. A question beside a cache key says who asks. -/
inductive EnrichAsk where
  | clock
  | getMany (asked : List (String × Question))
  | lock (key : String)
  | wait (key : String) (question : Question)
  | unlock (key : String)
  | breaker (rule : CompiledEnrichRule)
  | source (rule : CompiledEnrichRule)
  | resolve (ruleId : String) (origin : Origin) (keys : List String)
  | putMany (stored : List (String × Question × Answer)) (ttl negativeTtl : Nat)

abbrev EnrichReply : EnrichAsk → Type
  | .clock => Rat
  | .getMany _ => List (String × Answer) × List String
  | .lock _ => Bool
  | .wait _ _ => Option Answer
  | .unlock _ => Unit
  | .breaker _ => Bool
  | .source _ => SourceReply
  | .resolve _ _ _ => ResolveReply
  | .putMany _ _ _ => Unit

abbrev EnrichTask := Dialog EnrichAsk EnrichReply

namespace EnrichTask

def clock : EnrichTask Rat := Dialog.query EnrichAsk.clock

def getMany (asked : List (String × Question)) :
    EnrichTask (List (String × Answer) × List String) :=
  Dialog.query (EnrichAsk.getMany asked)

def lock (key : String) : EnrichTask Bool := Dialog.query (EnrichAsk.lock key)

def wait (key : String) (question : Question) : EnrichTask (Option Answer) :=
  Dialog.query (EnrichAsk.wait key question)

def unlock (key : String) : EnrichTask Unit := Dialog.query (EnrichAsk.unlock key)

def breaker (rule : CompiledEnrichRule) : EnrichTask Bool := Dialog.query (EnrichAsk.breaker rule)

def source (rule : CompiledEnrichRule) : EnrichTask SourceReply :=
  Dialog.query (EnrichAsk.source rule)

def resolve (ruleId : String) (origin : Origin) (keys : List String) : EnrichTask ResolveReply :=
  Dialog.query (EnrichAsk.resolve ruleId origin keys)

def putMany (stored : List (String × Question × Answer)) (ttl negativeTtl : Nat) :
    EnrichTask Unit :=
  Dialog.query (EnrichAsk.putMany stored ttl negativeTtl)

end EnrichTask

structure EnricherCaps where
  suggestedTtl : Nat
  suggestedNegativeTtl : Nat

structure RemoteCall where
  policy : CompiledPolicy
  batch : List Obj
  organization : Int
  budget : Rat
  /-- `_cache_for(ctx)` is not `None`. -/
  hasCache : Bool
  /-- `_disabled_this_cycle`. -/
  disabled : List String

abbrev Rows := List ((String × String) × Answer)

structure RemoteState where
  rows : Rows
  disabled : List String
  deriving DecidableEq

/-- How the loop over the remote rules goes on after a rule. -/
inductive Turn where
  | next (st : RemoteState)
  | stop (st : RemoteState)
  | raised

section Resolve
variable (lib : EnrichLibrary) (registry : String → Option EnricherCaps)

/-- `_distinct_keys`. -/
def distinctKeys (batch : List Obj) (rule : CompiledEnrichRule) : Except PyError (List String) :=
  batch.foldlM (fun seen envelope =>
    if gateOpen lib rule (.obj envelope) then do
      match ← extractKey lib (.obj envelope) rule with
      | none => pure seen
      | some key => pure (if key ∈ seen then seen else seen ++ [key])
    else pure seen) []

def RemoteCall.question (call : RemoteCall) (rule : CompiledEnrichRule) (key : String) :
    Question :=
  ⟨rule.origin call.organization, key⟩

def RemoteCall.cacheKey (call : RemoteCall) (rule : CompiledEnrichRule) (key : String) : String :=
  (call.question rule key).cacheKey lib.rt.toRuntime call.policy.version

/-- `inv`: of the keys with one cache key the last remains. -/
def keyOfCache (ck : String → String) (keys : List String) (c : String) : String :=
  ((Assoc.collect (fun k => some (ck k, k)) [] keys).lookup c).getD ""

/-- One pass of the single-flight loop, with the rows and the keys this call resolves itself. -/
def acquire (call : RemoteCall) (rule : CompiledEnrichRule) (acc : Rows × List String)
    (key : String) : EnrichTask (Rows × List String) := do
  let ck := call.cacheKey lib rule key
  if ← EnrichTask.lock ck then pure (acc.1, acc.2 ++ [key])
  else
    match ← EnrichTask.wait ck (call.question rule key) with
    | some a => pure (Assoc.set (rule.ruleId, key) a acc.1, acc.2)
    | none => pure (acc.1, acc.2 ++ [key])

/-- `put_many` of what the provider did answer. -/
def toStore (call : RemoteCall) (rule : CompiledEnrichRule) (owned : List String)
    (resolved : List (String × Answer)) : List (String × Question × Answer) :=
  Assoc.collect (fun k => (resolved.lookup k).map
    (fun a => (call.cacheKey lib rule k, call.question rule k, a))) [] owned

def addRows (ruleId : String) (owned : List String) (resolved : List (String × Answer))
    (rows : Rows) : Rows :=
  Assoc.collect (fun k => (resolved.lookup k).map (fun a => ((ruleId, k), a))) rows owned

/-- The loop of `release_single_flight`. -/
def releaseAll (call : RemoteCall) (rule : CompiledEnrichRule) (owned : List String) :
    EnrichTask Unit :=
  Dialog.fold (fun _ key => EnrichTask.unlock (call.cacheKey lib rule key)) () owned

/-- From the breaker on, for the keys that are this call's to resolve. The locks are released when
the breaker is open and in the `finally` of `resolve`. -/
def resolveOwned (call : RemoteCall) (caps : EnricherCaps) (rule : CompiledEnrichRule)
    (owned : List String) (st : RemoteState) : EnrichTask Turn := do
  let out := { st with disabled := rule.enricher :: st.disabled }
  if ← EnrichTask.breaker rule then do
    releaseAll lib call rule owned
    pure (.next out)
  else
    match ← EnrichTask.source rule with
    | .lookupError => pure (.next out)
    | .raised => pure .raised
    | .ok => do
      let reply ← EnrichTask.resolve rule.ruleId (rule.origin call.organization) owned
      releaseAll lib call rule owned
      match reply with
      | .timeout => pure (.next out)
      | .raised => pure (.next st)
      | .ok resolved => do
        let _ ← EnrichTask.putMany (toStore lib call rule owned resolved)
          (rule.ttl.getD caps.suggestedTtl) (rule.negativeTtl.getD caps.suggestedNegativeTtl)
        pure (.next { st with rows := addRows rule.ruleId owned resolved st.rows })

/-- From the cache on, for the distinct keys of the batch. -/
def resolveKeys (call : RemoteCall) (deadline : Rat) (caps : EnricherCaps)
    (rule : CompiledEnrichRule) (keys : List String) (st : RemoteState) : EnrichTask Turn := do
  let ck := call.cacheKey lib rule
  let back := keyOfCache ck keys
  let cached ← EnrichTask.getMany (keys.map (fun k => (ck k, call.question rule (back (ck k)))))
  let rows := Assoc.collect (fun p => some ((rule.ruleId, back p.1), p.2)) st.rows cached.1
  let missing := cached.2.map back
  if missing = [] then pure (.next { st with rows := rows })
  else do
    let now ← EnrichTask.clock
    if deadline - now ≤ 0 then pure (.stop { st with rows := rows })
    else do
      let acc ← Dialog.fold (acquire lib call rule) (rows, []) missing
      if acc.2 = [] then pure (.next { st with rows := acc.1 })
      else resolveOwned lib call caps rule acc.2 { st with rows := acc.1 }

def resolveRemoteRule (call : RemoteCall) (deadline : Rat) (st : RemoteState)
    (rule : CompiledEnrichRule) : EnrichTask Turn :=
  if rule.enricher ∈ st.disabled then pure (.next st)
  else
    match registry rule.enricher with
    | none => pure (.next st)
    | some caps =>
      match distinctKeys lib call.batch rule with
      | .error _ => pure .raised
      | .ok keys =>
        if keys = [] then pure (.next st) else resolveKeys lib call deadline caps rule keys st

/-- The loop over the remote rules; `none` when an exception leaves it. -/
def resolveRemoteRules (call : RemoteCall) (deadline : Rat) :
    List CompiledEnrichRule → RemoteState → EnrichTask (Option RemoteState)
  | [], st => pure (some st)
  | rule :: rules, st => do
    match ← resolveRemoteRule lib registry call deadline st rule with
    | .next st => resolveRemoteRules call deadline rules st
    | .stop st => pure (some st)
    | .raised => pure none

def resolveRemote (call : RemoteCall) : EnrichTask (Option RemoteState) :=
  let rules := call.policy.remoteRules
  if rules = [] ∨ call.batch = [] ∨ call.hasCache = false then pure (some ⟨[], call.disabled⟩)
  else do
    let now ← EnrichTask.clock
    resolveRemoteRules lib registry call (now + call.budget) rules ⟨[], call.disabled⟩

end Resolve

/-- The caches, the clock, and what has passed between the workers and the providers: the answers
given, the keys sent for each rule, and the enrichers found out of service. -/
structure EnrichState where
  now : Rat
  l1 : Nat → L1
  l2 : L2
  answered : List (Question × Answer)
  calls : List (String × Origin × List String)
  outages : List String

def EnrichState.empty : EnrichState := ⟨0, fun _ => [], [], [], [], []⟩

def EnrichState.outage (s : EnrichState) (enricher : String) : EnrichState :=
  { s with outages := s.outages ++ [enricher] }

def EnrichState.send (s : EnrichState) (ruleId : String) (origin : Origin) (keys : List String) :
    EnrichState :=
  { s with calls := s.calls ++ [(ruleId, origin, keys)] }

def EnrichState.answer (s : EnrichState) (origin : Origin) (resolved : List (String × Answer)) :
    EnrichState :=
  { s with answered := s.answered ++ resolved.map (fun p => (⟨origin, p.1⟩, p.2)) }

/-- The L1 of one worker after `put_many`. -/
def putL1 (maxEntries : Nat) (now : Rat) (ttl negativeTtl : Nat)
    (stored : List (String × Question × Answer)) (l1 : L1) : L1 :=
  stored.foldl (fun l1 p =>
    l1.put maxEntries now (if p.2.2 = none then negativeTtl else ttl) p.1 ⟨p.2.1, p.2.2⟩) l1

def putL2 (stored : List (String × Question × Answer)) (l2 : L2) : L2 :=
  Assoc.collect (fun p => some (p.1, ⟨p.2.1, p.2.2⟩)) l2 stored

/-- What each await of one worker may return, and what it leaves. Redis may be down at any of
them; locks, breakers, sources and providers answer as they please. -/
def enrichAnswers (maxEntries : Nat) (worker : Nat) (s : EnrichState) :
    (q : EnrichAsk) → EnrichReply q → EnrichState → Prop
  | .clock, now, s' => now = s.now ∧ s' = s
  | .getMany asked, cached, s' =>
    ∃ up : Bool,
      let found := getMany s.now (s.l1 worker) (if up then some s.l2 else none) (asked.map Prod.fst)
      cached = (found.1, found.2.1) ∧
        s' = { s with l1 := Function.update s.l1 worker found.2.2 }
  | .lock _, _, s' => s' = s
  | .wait key _, a, s' =>
    (a = none ∨ ∃ e, s.l2.lookup key = some e ∧ a = some e.answer) ∧ s' = s
  | .unlock _, _, s' => s' = s
  | .breaker rule, opened, s' => s' = if opened then s.outage rule.enricher else s
  | .source rule, reply, s' =>
    s' = match reply with
      | .lookupError => s.outage rule.enricher
      | _ => s
  | .resolve ruleId origin keys, reply, s' =>
    s' = match reply with
      | .timeout => (s.send ruleId origin keys).outage origin.enricher
      | .raised => s.send ruleId origin keys
      | .ok resolved => (s.send ruleId origin keys).answer origin resolved
  | .putMany stored ttl negativeTtl, _, s' =>
    ∃ up : Bool, s' = { s with
      l1 := Function.update s.l1 worker
        (putL1 maxEntries s.now ttl negativeTtl stored (s.l1 worker))
      l2 := if up then putL2 stored s.l2 else s.l2 }

/-- Time passes, entries of the shared cache expire, and workers rebuild their client. -/
structure EnrichState.Moves (s s' : EnrichState) : Prop where
  now : s.now ≤ s'.now
  l2 : s'.l2.Sublist s.l2
  l1 : ∀ worker, s'.l1 worker = s.l1 worker ∨ s'.l1 worker = []
  answered : s'.answered = s.answered
  calls : s'.calls = s.calls
  outages : s'.outages = s.outages

abbrev EnrichCrew := Crew EnrichState Nat RemoteCall EnrichAsk EnrichReply (Option RemoteState)

/-- Workers that call `resolve_remote` at any time and in any order, where each await is allowed. -/
def enrichCrew (lib : EnrichLibrary) (registry : String → Option EnricherCaps) (maxEntries : Nat)
    (allowed : Nat → EnrichState → EnrichAsk → Prop) :
    CrewRules EnrichState Nat RemoteCall EnrichAsk EnrichReply (Option RemoteState) where
  program := resolveRemote lib registry
  starts _ _ _ := True
  answers worker s q r s' := allowed worker s q ∧ enrichAnswers maxEntries worker s q r s'
  moves := EnrichState.Moves

/-- One worker whose Redis is up and whose locks are free, with providers that answer every key. -/
def redisUp (maxEntries worker : Nat) (provider : Origin → String → Answer) (s : EnrichState) :
    (q : EnrichAsk) → EnrichReply q × EnrichState
  | .clock => (s.now, s)
  | .getMany asked =>
    let found := getMany s.now (s.l1 worker) (some s.l2) (asked.map Prod.fst)
    ((found.1, found.2.1), { s with l1 := Function.update s.l1 worker found.2.2 })
  | .lock _ => (true, s)
  | .wait _ _ => (none, s)
  | .unlock _ => ((), s)
  | .breaker _ => (false, s)
  | .source _ => (.ok, s)
  | .resolve ruleId origin keys =>
    let resolved := keys.map (fun k => (k, provider origin k))
    (.ok resolved, (s.send ruleId origin keys).answer origin resolved)
  | .putMany stored ttl negativeTtl =>
    ((), { s with
      l1 := Function.update s.l1 worker
        (putL1 maxEntries s.now ttl negativeTtl stored (s.l1 worker))
      l2 := putL2 stored s.l2 })

theorem redisUp_answers (maxEntries worker : Nat) (provider : Origin → String → Answer)
    (s : EnrichState) (q : EnrichAsk) :
    enrichAnswers maxEntries worker s q (redisUp maxEntries worker provider s q).1
      (redisUp maxEntries worker provider s q).2 := by
  cases q with
  | clock => exact ⟨rfl, rfl⟩
  | getMany asked => exact ⟨true, rfl, rfl⟩
  | lock key => exact rfl
  | wait key question => exact ⟨.inl rfl, rfl⟩
  | unlock key => exact rfl
  | breaker rule => exact rfl
  | source rule => exact rfl
  | resolve ruleId origin keys => exact rfl
  | putMany stored ttl negativeTtl => exact ⟨true, rfl⟩

def EnrichCrew.initial : EnrichCrew := ⟨.empty, fun _ => none⟩

end CentralOps
