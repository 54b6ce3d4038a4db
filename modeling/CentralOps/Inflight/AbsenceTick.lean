import CentralOps.Inflight.Flush

namespace CentralOps
set_option autoImplicit true

inductive TickState where
  | ok | unobservable | lagging | unavailable
  deriving DecidableEq

/-- The counters of a tick. -/
structure AbsenceTickResult where
  rules : Nat := 0
  evaluated : Nat := 0
  skippedLock : Nat := 0
  unobservable : Nat := 0
  lagging : Nat := 0
  unavailable : Nat := 0
  rejected : Nat := 0
  alerted : Nat := 0
  bumped : Nat := 0
  recovered : Nat := 0
  forgotten : Nat := 0
  tracked : Nat := 0
  silent : Nat := 0
  errors : Nat := 0
  states : List (Int × TickState) := []

/-- `dedup_key` of `absence.py`. -/
def absenceDedupKey (organizationId ruleId : Int) (token : String) : String :=
  "absence:" ++ toString organizationId ++ ":" ++ toString ruleId ++ ":" ++ token

/-- `forget`: the rule's own, or else three windows. -/
def CompiledInflightRule.forgetAfter (rule : CompiledInflightRule) : Int :=
  if rule.forgetSeconds = 0 then 3 * rule.windowSeconds else rule.forgetSeconds

structure AbsenceTick where
  rule : CompiledInflightRule
  organizationId : Int
  now : Rat

/-- What the loop over the silent keys carries. -/
structure SilenceTally where
  budget : Int
  bumped : Nat := 0
  errors : Nat := 0
  emits : List DetectionEmit := []
  newlyAlerted : List (String × Nat) := []

structure TickOutcome where
  result : AbsenceTickResult
  budget : Int
  emits : List DetectionEmit := []

namespace AbsenceTick
variable (cfg : InflightSettings) (tick : AbsenceTick)

def ruleId : Int := tick.rule.ruleId

def ttl : Int := tick.rule.forgetAfter + stateTtlSlack

def age (seen : String × Int) : Rat := tick.now - seen.2

def forgets (seen : String × Int) : Bool := decide ((tick.rule.forgetAfter : Rat) < tick.age seen)

def silent (seen : String × Int) : Bool :=
  decide ((tick.rule.windowSeconds + cfg.absenceGraceSeconds : Rat) < tick.age seen)

def toForget (state : WatchState) : List (String × Int) := state.seen.filter tick.forgets

def candidates (state : WatchState) : List (String × Int) :=
  state.seen.filter (fun seen => !tick.forgets seen && tick.silent cfg seen)

def recovered (state : WatchState) : List String :=
  (state.seen.filter (fun seen => !tick.forgets seen && !tick.silent cfg seen &&
    (state.alerted.lookup seen.1).isSome)).map Prod.fst

/-- `_close_detection` for the alert of a key, if it has one. -/
def closeAlert (state : WatchState) (token : String) : InflightTask Bool :=
  match state.alerted.lookup token with
  | none => pure false
  | some id => if cfg.absenceAutoClose then ask (.closeDetection id) else pure false

def closeAlerts (state : WatchState) (tokens : List String) (result : AbsenceTickResult) :
    InflightTask AbsenceTickResult :=
  Dialog.fold (fun result token => do
    let closed ← closeAlert cfg state token
    pure (if closed then { result with recovered := result.recovered + 1 } else result))
    result tokens

def forgetKeys (state : WatchState) (result : AbsenceTickResult) :
    InflightTask AbsenceTickResult :=
  let gone := tick.toForget state
  if gone = [] then pure result
  else do
    let tokens := gone.map Prod.fst
    let alerted := tokens.filter (fun token => (state.alerted.lookup token).isSome)
    let _ ← ask (.forget tick.organizationId tick.ruleId gone alerted)
    let result ← closeAlerts cfg state tokens result
    pure { result with forgotten := result.forgotten + gone.length }

def recoverKeys (state : WatchState) (result : AbsenceTickResult) :
    InflightTask AbsenceTickResult :=
  let back := tick.recovered cfg state
  if back = [] then pure result
  else do
    let result ← closeAlerts cfg state back result
    let _ ← ask (.clearAlerted tick.organizationId tick.ruleId back)
    pure result

/-- The evidence of a silence. The age of a silent key is positive, so `int` rounds it down. -/
def evidence (seen : String × Int) : Obj :=
  let path := ".".intercalate (tick.rule.groupByPath.getD [])
  [("group_field", if path = "" then .null else .str path),
    ("group_value", .str seen.1),
    ("stream", (streamPinnedBy tick.rule.clauses).elim .null .str),
    ("absence", .obj
      [("last_seen", .int seen.2),
        ("silent_for_seconds", .int (tick.age seen).floor),
        ("expected_within_seconds", .int tick.rule.windowSeconds),
        ("forget_after_seconds", .int tick.rule.forgetAfter)])]

def recordCall (seen : String × Int) : RecordCall where
  organizationId := tick.organizationId
  dedupKey := absenceDedupKey tick.organizationId tick.ruleId seen.1
  severityId := tick.rule.severityId
  ruleId := toString tick.ruleId
  ruleName := tick.rule.name
  integrationId := none
  suppressionWindowSeconds := tick.rule.suppressionWindowSeconds
  evidence := tick.evidence seen

def emit (seen : String × Int) (det : RecordedRow) : DetectionEmit where
  dedupKey := absenceDedupKey tick.organizationId tick.ruleId seen.1
  detectionId := det.id
  ruleId := tick.ruleId
  ruleName := tick.rule.name
  severityId := tick.rule.severityId
  integrationId := none
  source := tick.evidence seen
  emitEvent := tick.rule.emitEvent

/-- What is made of a row that `record` returned. -/
def tally (state : WatchState) (seen : String × Int) (det : RecordedRow) (tally : SilenceTally) :
    SilenceTally :=
  let paid := { tally with budget := tally.budget - 1 }
  if det.count = 1 then
    { paid with
      newlyAlerted := Assoc.set seen.1 det.id paid.newlyAlerted
      emits := paid.emits ++ [tick.emit seen det] }
  else if (state.alerted.lookup seen.1).isSome then { paid with bumped := paid.bumped + 1 }
  else
    { paid with
      bumped := paid.bumped + 1
      newlyAlerted := Assoc.set seen.1 det.id paid.newlyAlerted }

def alertKey (state : WatchState) (tally : SilenceTally) (seen : String × Int) :
    InflightTask SilenceTally :=
  if tally.budget ≤ 0 then pure tally
  else do
    match ← ask (.record (tick.recordCall seen)) with
    | none => pure { tally with errors := tally.errors + 1 }
    | some det => pure (tick.tally state seen det tally)

/-- From the decision for each key on. -/
def settle (state : WatchState) (budget : Int) (result : AbsenceTickResult) :
    InflightTask TickOutcome := do
  let result ← tick.forgetKeys cfg state result
  let result ← tick.recoverKeys cfg state result
  let silences := tick.candidates cfg state
  let tally ← Dialog.fold (tick.alertKey state) { budget := budget } silences
  if tally.newlyAlerted ≠ [] then
    let _ ← ask (.markAlerted tick.organizationId tick.ruleId tally.newlyAlerted tick.ttl)
  let _ ← ask (.writeTick tick.organizationId tick.ruleId tick.ttl)
  pure
    { result := { result with
        evaluated := result.evaluated + 1
        alerted := result.alerted + tally.emits.length
        bumped := result.bumped + tally.bumped
        errors := result.errors + tally.errors
        tracked := result.tracked + (state.seen.length - (tick.toForget state).length)
        silent := result.silent + silences.length
        states := Assoc.set tick.ruleId .ok result.states }
      budget := tally.budget
      emits := tally.emits }

/-- No heartbeat, or none that is recent. -/
def unobserved (state : WatchState) : Bool :=
  match state.lastCycle with
  | none => true
  | some cycle => decide ((cfg.absenceObserverMaxAgeSeconds : Rat) < tick.now - cycle)

/-- From the state that was read on. -/
def judge (state : WatchState) (budget : Int) (result : AbsenceTickResult) :
    InflightTask TickOutcome := do
  if tick.unobserved cfg state then
    let _ ← ask (.writeTick tick.organizationId tick.ruleId tick.ttl)
    pure
      { result := { result with
          unobservable := result.unobservable + 1
          states := Assoc.set tick.ruleId .unobservable result.states }
        budget := budget }
  else
    let lags ← match streamPinnedBy tick.rule.clauses with
      | some stream =>
        ask (.lagging tick.organizationId stream tick.rule.windowSeconds tick.now)
      | none => pure false
    if lags then
      let _ ← ask (.writeTick tick.organizationId tick.ruleId tick.ttl)
      pure
        { result := { result with
            lagging := result.lagging + 1
            states := Assoc.set tick.ruleId .lagging result.states }
          budget := budget }
    else tick.settle cfg state budget result

/-- `evaluate_absence_rule`. -/
def evaluate (budget : Int) (result : AbsenceTickResult) : InflightTask TickOutcome := do
  let result := { result with rules := result.rules + 1 }
  if !(← ask (.tickLock tick.ruleId)) then
    pure { result := { result with skippedLock := result.skippedLock + 1 }, budget := budget }
  else
    match ← ask (.readWatch tick.organizationId tick.ruleId) with
    | none =>
      pure
        { result := { result with
            unavailable := result.unavailable + 1
            states := Assoc.set tick.ruleId .unavailable result.states }
          budget := budget }
    | some state => tick.judge cfg state budget result

def Judging (state : WatchState) : InflightAsk → Prop
  | .record call => ∃ seen ∈ tick.candidates cfg state, call = tick.recordCall seen
  | .lagging _ _ _ _ | .forget _ _ _ _ | .closeDetection _ | .clearAlerted _ _ _
  | .markAlerted _ _ _ _ | .writeTick _ _ _ => True
  | _ => False

variable {cfg} {tick} {state : WatchState}

theorem closeAlerts_asks (tokens : List String) (result : AbsenceTickResult) :
    (closeAlerts cfg state tokens result).Asks (tick.Judging cfg state) := by
  apply Dialog.Asks.fold
  intro result token _
  apply Dialog.Asks.bind _ (fun closed => Dialog.asks_pure _)
  rw [closeAlert]
  split
  · exact Dialog.asks_pure _
  · split
    · exact ⟨trivial, fun _ => trivial⟩
    · exact Dialog.asks_pure _

theorem forgetKeys_asks (result : AbsenceTickResult) :
    (tick.forgetKeys cfg state result).Asks (tick.Judging cfg state) := by
  rw [forgetKeys]
  simp only []
  split
  · exact Dialog.asks_pure _
  · apply Dialog.Asks.query trivial
    intro _
    exact (closeAlerts_asks _ _).bind (fun _ => Dialog.asks_pure _)

theorem recoverKeys_asks (result : AbsenceTickResult) :
    (tick.recoverKeys cfg state result).Asks (tick.Judging cfg state) := by
  rw [recoverKeys]
  split
  · exact Dialog.asks_pure _
  · apply (closeAlerts_asks _ _).bind
    intro _
    exact ⟨trivial, fun _ => trivial⟩

theorem alertKey_asks {seen : String × Int} (h : seen ∈ tick.candidates cfg state)
    (tally : SilenceTally) : (tick.alertKey state tally seen).Asks (tick.Judging cfg state) := by
  rw [alertKey]
  split
  · exact Dialog.asks_pure _
  · apply Dialog.Asks.query
    · exact ⟨seen, h, rfl⟩
    intro det
    cases det <;> exact Dialog.asks_pure _

theorem settle_asks (budget : Int) (result : AbsenceTickResult) :
    (tick.settle cfg state budget result).Asks (tick.Judging cfg state) := by
  rw [settle]
  apply (forgetKeys_asks result).bind
  intro result
  apply (recoverKeys_asks result).bind
  intro result
  apply Dialog.Asks.bind (Dialog.Asks.fold (fun tally seen h => alertKey_asks h tally) _)
  intro tally
  have hlast : ∀ out : TickOutcome, (do
      let _ ← ask (.writeTick tick.organizationId tick.ruleId tick.ttl)
      pure out : InflightTask TickOutcome).Asks (tick.Judging cfg state) :=
    fun out => ⟨trivial, fun _ => trivial⟩
  simp only []
  split
  · exact ⟨trivial, fun _ => hlast _⟩
  · exact hlast _

theorem judge_asks (budget : Int) (result : AbsenceTickResult) :
    (tick.judge cfg state budget result).Asks (tick.Judging cfg state) := by
  rw [judge]
  split
  · exact ⟨trivial, fun _ => trivial⟩
  · have hlags : ∀ lags : Bool, (if lags then do
        let _ ← ask (.writeTick tick.organizationId tick.ruleId tick.ttl)
        pure
          { result := { result with
              lagging := result.lagging + 1
              states := Assoc.set tick.ruleId .lagging result.states }
            budget := budget }
      else tick.settle cfg state budget result : InflightTask TickOutcome).Asks
        (tick.Judging cfg state) := by
      intro lags
      split
      · exact ⟨trivial, fun _ => trivial⟩
      · exact settle_asks _ _
    split
    · exact ⟨trivial, hlags⟩
    · exact hlags false

end AbsenceTick
end CentralOps
