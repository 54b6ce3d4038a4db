import CentralOps.Inflight.Task

namespace CentralOps
set_option autoImplicit true

def stateTtlSlack : Int := 24 * 60 * 60

/-- `stream_pinned_by`. -/
def streamPinnedBy (clauses : List CompiledClause) : Option String :=
  clauses.findSome? (fun c =>
    if c.path = ["_centralops", "stream"] then
      match c.test with
      | .eq (.str s) => if strip s = "" then none else some (strip s)
      | _ => none
    else none)

/-- The tokens of a presence write that the watch set has room for, and how many it has not. -/
def admitTokens (known : String → Bool) : Nat → List String → List String × Nat
  | _, [] => ([], 0)
  | budget, token :: tokens =>
    if known token then
      let rest := admitTokens known budget tokens
      (token :: rest.1, rest.2)
    else if 0 < budget then
      let rest := admitTokens known (budget - 1) tokens
      (token :: rest.1, rest.2)
    else
      let rest := admitTokens known budget tokens
      (rest.1, rest.2 + 1)

namespace InflightAccumulator
variable (cfg : InflightSettings)

def presences (acc : InflightAccumulator) : List (String × PendingItem) :=
  acc.pending.entries.filter (fun p => p.2.rule.absence)

def withoutPresences (acc : InflightAccumulator) : InflightAccumulator :=
  let stays (k : String) := ((acc.pending.get? k).map (fun item => !item.rule.absence)).getD true
  { acc with pending := acc.pending.filterKeys stays }

def watchedRules (acc : InflightAccumulator) : List (Int × CompiledInflightRule) :=
  acc.presences.foldl (fun rules p =>
    if (rules.lookup p.2.rule.ruleId).isSome then rules
    else rules ++ [(p.2.rule.ruleId, p.2.rule)]) acc.absenceRules

def tokensOf (acc : InflightAccumulator) (ruleId : Int) : List String :=
  ((acc.presences.filter (fun p => p.2.rule.ruleId = ruleId)).map (fun p => p.2.token)).eraseDups

/-- `sorted(rules)`, with the rule of each id. -/
def watchOrder (acc : InflightAccumulator) : List (Int × CompiledInflightRule) :=
  acc.watchedRules.insertionSort (fun a b => a.1 ≤ b.1)

def admitted (acc : InflightAccumulator) (view : SeenView) (ruleId : Int) : List String × Nat :=
  admitTokens (view.known ruleId) (cfg.absenceMaxKeysPerRule - view.size ruleId)
    (acc.tokensOf ruleId)

def seenWrites (acc : InflightAccumulator) (view : SeenView) : List SeenWrite :=
  acc.watchOrder.map (fun p =>
    { ruleId := p.1
      tokens := (acc.admitted cfg view p.1).1
      ttl := p.2.forgetSeconds + stateTtlSlack })

/-- The errors of the tokens that found no room. -/
def countRefused (acc : InflightAccumulator) (view : SeenView) (out : InflightAccumulator) :
    InflightAccumulator :=
  acc.watchOrder.foldl (fun out p =>
    let beyond := (acc.admitted cfg view p.1).2
    if beyond = 0 then out else out.countError .absenceKeyCap p.1 beyond) out

def countUnavailable (acc out : InflightAccumulator) : InflightAccumulator :=
  acc.watchedRules.foldl (fun out p => out.countError .absenceUnavailable p.1 1) out

/-- `apply_absence_presence`. A time of day is positive, so `int` rounds it down. -/
def applyAbsencePresence (organizationId : Int) (acc : InflightAccumulator) :
    InflightTask InflightAccumulator := do
  let now ← ask .clock
  let out := acc.withoutPresences
  if acc.watchedRules = [] then pure out
  else do
    match ← ask (.readSeen organizationId (acc.watchOrder.map (fun p => (p.1, acc.tokensOf p.1))))
    with
    | none => pure (acc.countUnavailable out)
    | some view => do
      let counted := acc.countRefused cfg view out
      match ← ask (.writeSeen organizationId view (acc.seenWrites cfg view) now.floor) with
      | none => pure (acc.countUnavailable counted)
      | some _ => pure counted

end InflightAccumulator

end CentralOps
