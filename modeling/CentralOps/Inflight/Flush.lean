import CentralOps.Inflight.Presence

namespace CentralOps
set_option autoImplicit true

/-! The sliding windows of `window.py`. -/

def windowBuckets : Int := 10

def bucketSeconds (windowSeconds : Int) : Int := max 1 (windowSeconds / windowBuckets)

def bucketIds (windowSeconds : Int) (now : Rat) : List Int :=
  let slice := bucketSeconds windowSeconds
  let cur := now.floor / slice
  let n := (max 1 (windowSeconds / slice)).toNat
  (List.range (n + 1)).map (fun (i : Nat) => cur - n + i)

/-- The slice of the present. -/
def currentBucket (windowSeconds : Int) (now : Rat) : Int :=
  now.floor / bucketSeconds windowSeconds

def CompiledInflightRule.windowed (rule : CompiledInflightRule) : Bool :=
  decide (1 < rule.minCount ∧ 0 < rule.windowSeconds)

def CompiledInflightRule.isLeg (rule : CompiledInflightRule) : Bool :=
  rule.legIndex.isSome && decide (1 < rule.legsTotal)

namespace InflightAccumulator
variable (cfg : InflightSettings)

def targets (acc : InflightAccumulator) (p : CompiledInflightRule → Bool) :
    List (String × PendingItem) :=
  acc.pending.entries.filter (fun e => p e.2.rule)

def drop (acc : InflightAccumulator) (key : String) : InflightAccumulator :=
  { acc with pending := acc.pending.filterKeys (fun k => k ≠ key) }

def amend (acc : InflightAccumulator) (key : String) (f : Obj → Obj) : InflightAccumulator :=
  let change (k : String) (item : PendingItem) :=
    if k = key then { item with source := f item.source } else item
  { acc with pending := acc.pending.mapEntries change }

/-- `count_error` and `del`, for the keys in turn. -/
def discard (acc : InflightAccumulator) (reason : ErrorReason)
    (entries : List (String × PendingItem)) : InflightAccumulator :=
  entries.foldl (fun acc e => (acc.countError reason e.2.rule.ruleId 1).drop e.1) acc

def legsEvidence (state : List (Nat × Obj)) (rule : CompiledInflightRule) (source : Obj) : Obj :=
  let legs := (state.insertionSort (fun a b => a.1 ≤ b.1)).map
    (fun p => Json.obj (Assoc.set "leg_index" (.int p.1) p.2))
  Assoc.set "sequence"
    (.obj [("legs", .int rule.legsTotal), ("window_seconds", .int rule.windowSeconds)])
    (Assoc.set "legs" (.list legs) source)

def complete (state : String → List (Nat × Obj)) (e : String × PendingItem) : Bool :=
  decide (e.2.rule.legsTotal ≤ (state e.1).length)

def settleSequence (state : String → List (Nat × Obj)) (acc : InflightAccumulator)
    (e : String × PendingItem) : InflightAccumulator :=
  if complete state e then acc.amend e.1 (legsEvidence (state e.1) e.2.rule)
  else (acc.countError .sequenceBelow e.2.rule.ruleId 1).drop e.1

/-- `_apply_sequences`. The deletion of the closed states is best effort. -/
def applySequences (acc : InflightAccumulator) : InflightTask InflightAccumulator := do
  let targets := acc.targets (fun rule => rule.isLeg)
  if targets = [] then pure acc
  else do
    let writes := targets.map (fun e => LegWrite.mk e.1 e.2.legs (e.2.rule.windowSeconds + 5))
    match ← ask (.writeLegs writes) with
    | none => pure (acc.discard .sequenceUnavailable targets)
    | some _ =>
      match ← ask (.readLegs (targets.map Prod.fst)) with
      | none => pure (acc.discard .sequenceUnavailable targets)
      | some state => do
        let out := targets.foldl (settleSequence state) acc
        let closed := targets.filter (complete state)
        if closed = [] then pure out
        else do
          let _ ← ask (.dropLegs (closed.map (fun e => (e.1, state e.1))))
          pure out

def windowEvidence (total : Nat) (rule : CompiledInflightRule) (source : Obj) : Obj :=
  Assoc.set "window"
    (.obj [("count", .int total), ("seconds", .int rule.windowSeconds),
      ("min_count", .int rule.minCount)]) source

def settleWindow (totals : String → Nat) (acc : InflightAccumulator) (e : String × PendingItem) :
    InflightAccumulator :=
  if (totals e.1 : Int) < e.2.rule.minCount then
    (acc.countError .windowBelow e.2.rule.ruleId 1).drop e.1
  else acc.amend e.1 (windowEvidence (totals e.1) e.2.rule)

/-- `apply_windows`: the hits go to the present slices, the totals are those of the windows. -/
def applyWindows (items : List (String × PendingItem)) : InflightTask (Option (String → Nat)) := do
  let now ← ask .clock
  let bumps := items.map (fun e =>
    let window := e.2.rule.windowSeconds
    WindowBump.mk e.1 (currentBucket window now) e.2.hits (window + bucketSeconds window + 5))
  match ← ask (.bumpWindows bumps) with
  | none => pure none
  | some _ => do
    let reads := items.map (fun e => (e.1, bucketIds e.2.rule.windowSeconds now))
    match ← ask (.readWindows reads) with
    | none => pure none
    | some value =>
      pure (some (fun key =>
        (((reads.lookup key).getD []).map (fun b => (value key b).getD 0)).sum))

/-- `_apply_sliding_windows`. -/
def applySlidingWindows (acc : InflightAccumulator) : InflightTask InflightAccumulator := do
  let targets := acc.targets (fun rule => rule.windowed)
  if targets = [] then pure acc
  else do
    match ← applyWindows targets with
    | none => pure (acc.discard .windowUnavailable targets)
    | some totals => pure (targets.foldl (settleWindow totals) acc)

/-- `por_regra`: the pending keys of each rule. -/
def keysByRule (acc : InflightAccumulator) : Dict Int (List String) :=
  Dict.pushAll .empty (acc.pending.entries.map (fun e => (e.2.rule.ruleId, e.1)))

def capRound (cap rodada : Nat) : List (List String) → List String → List String
  | [], kept => kept
  | keys :: rest, kept =>
    match keys[rodada]? with
    | none => capRound cap rodada rest kept
    | some key =>
      if cap ≤ kept.length + 1 then kept ++ [key]
      else capRound cap rodada rest (kept ++ [key])

/-- `while len(mantidas) < cap`. Each round but the last keeps a key, so `cap` rounds are enough. -/
def capRounds (cap : Nat) (groups : List (List String)) : Nat → Nat → List String → List String
  | 0, _, kept => kept
  | fuel + 1, rodada, kept =>
    if cap ≤ kept.length then kept
    else
      let kept' := capRound cap rodada groups kept
      if kept'.length = kept.length then kept else capRounds cap groups fuel (rodada + 1) kept'

def capKept (acc : InflightAccumulator) : List String :=
  let groups := acc.keysByRule.entries.map Prod.snd
  capRounds cfg.maxDetectionsPerFlush groups cfg.maxDetectionsPerFlush 0 []

/-- What `_apply_flush_cap` leaves. -/
def applyFlushCap (acc : InflightAccumulator) : InflightAccumulator :=
  if acc.pending.entries.length ≤ cfg.maxDetectionsPerFlush then acc
  else
    let kept := acc.capKept cfg
    let gone := acc.pending.entries.filter (fun e => decide (e.1 ∉ kept))
    let perRule := gone.foldl (fun d e => d.bump e.2.rule.ruleId 1) (.empty : Dict Int Nat)
    let out := { acc with pending := acc.pending.filterKeys (fun k => decide (k ∈ kept)) }
    perRule.entries.foldl (fun out p => out.countError .flushCap p.1 p.2) out

/-- `_apply_flush_cap`, which warns where it cuts. -/
def capFlush (acc : InflightAccumulator) : InflightTask InflightAccumulator :=
  if acc.pending.entries.length ≤ cfg.maxDetectionsPerFlush then pure acc
  else do
    let cut := acc.pending.entries.filter (fun e => decide (e.1 ∉ acc.capKept cfg))
    let _ ← ask (.warnFlushCap (cut.map Prod.fst))
    pure (acc.applyFlushCap cfg)

end InflightAccumulator

structure DetectionEmit where
  dedupKey : String
  detectionId : Nat
  ruleId : Int
  ruleName : String
  severityId : Int
  integrationId : Option Int
  source : Obj
  emitEvent : Bool
  deriving DecidableEq

/-- How `_flush_sync` ends: with tickets, or with `InflightFlushInterrupted`. -/
structure FlushOutcome where
  written : List String := []
  emits : List DetectionEmit := []
  interrupted : Bool := false

def PendingItem.recordCall (item : PendingItem) (organizationId : Int) (key : String) :
    RecordCall where
  organizationId := organizationId
  dedupKey := key
  severityId := item.rule.severityId
  ruleId := toString item.rule.ruleId
  ruleName := item.rule.name
  integrationId := item.integrationId
  suppressionWindowSeconds := item.rule.suppressionWindowSeconds
  evidence := item.source

def PendingItem.emit (item : PendingItem) (key : String) (det : RecordedRow) : DetectionEmit where
  dedupKey := key
  detectionId := det.id
  ruleId := item.rule.ruleId
  ruleName := item.rule.name
  severityId := item.rule.severityId
  integrationId := item.integrationId
  source := item.source
  emitEvent := item.rule.emitEvent

def FlushOutcome.add (out : FlushOutcome) (key : String) (item : PendingItem) (det : RecordedRow) :
    FlushOutcome where
  written := out.written ++ [key]
  emits := if det.count = 1 then out.emits ++ [item.emit key det] else out.emits
  interrupted := false

/-- The loop of `_flush_sync`: it ends at the first `record` that raises. -/
def recordAll (organizationId : Int) : List (String × PendingItem) → FlushOutcome →
    InflightTask FlushOutcome
  | [], out => pure out
  | e :: rest, out => do
    match ← ask (.record (e.2.recordCall organizationId e.1)) with
    | none => pure { out with interrupted := true }
    | some det => recordAll organizationId rest (out.add e.1 e.2 det)

/-- `_flush_sync`. -/
def flushSync (organizationId : Int) (pending : Pending) : InflightTask FlushOutcome := do
  match ← ask .openSession with
  | none => pure { interrupted := true }
  | some _ => do
    let out ← recordAll organizationId pending.entries {}
    match ← ask .closeSession with
    | none => pure { out with interrupted := true }
    | some _ => pure out

def InflightAccumulator.countLost (acc : InflightAccumulator) (out : FlushOutcome) :
    InflightAccumulator :=
  if out.interrupted then
    (acc.pending.entries.filter (fun e => decide (e.1 ∉ out.written))).foldl
      (fun acc e => acc.countError .flushLost e.2.rule.ruleId 1) acc
  else acc

/-- The four filters of `flush_inflight`: what they leave pending is to be written. -/
def flushFilters (cfg : InflightSettings) (organizationId : Int) (acc : InflightAccumulator) :
    InflightTask InflightAccumulator := do
  let acc ← acc.applyAbsencePresence cfg organizationId
  let acc ← acc.applySequences
  let acc ← acc.applySlidingWindows
  acc.capFlush cfg

/-- `flush_inflight`, with the tickets that it hands to the emission. -/
def flushInflight (cfg : InflightSettings) (organizationId : Int) (acc : InflightAccumulator) :
    InflightTask (InflightAccumulator × List DetectionEmit) := do
  let acc ← flushFilters cfg organizationId acc
  if acc.pending.isEmpty then pure (acc, [])
  else do
    let out ← flushSync organizationId acc.pending
    pure (acc.countLost out, out.emits)

end CentralOps
