import Mathlib.Data.List.Sort
import CentralOps.Routing.Condition
import CentralOps.Inflight.Matcher

namespace CentralOps
set_option autoImplicit true

structure CorrelationRule where
  id : Int
  name : String
  ruleType : String := "threshold"
  severityId : Int := 4
  suppressionWindowSeconds : Option Int := some 3600
  whereJson : Option String := none
  legsJson : Option String := none
  groupByField : Option String := none
  minCount : Option Int := none
  windowSeconds : Option Int := none
  maxDedupKeys : Option Int := none
  emitEvent : Bool := false
  absenceForgetSeconds : Option Int := none

structure InflightSettings where
  maxWhereClauses : Nat := 10
  maxDedupKeysPerRulePerCycle : Nat := 256
  maxWindowSeconds : Int := 3600
  maxWindowCount : Int := 10000
  maxGroupValueLen : Nat := 200
  maxLegs : Nat := 4
  maxDetectionsPerFlush : Nat := 500
  absenceMaxKeysPerRule : Nat := 5000
  absenceObserverMaxAgeSeconds : Int := 15 * 60
  absenceGraceSeconds : Int := 300
  absenceAutoClose : Bool := true
  absenceMaxWindowSeconds : Int := 7 * 24 * 60 * 60
  absenceMaxForgetSeconds : Int := 30 * 24 * 60 * 60

inductive RejectReason where
  | badJson | emptyWhere | overCap | unknownOp | groupByRoot | windowOverCap | windowCountOverCap
  | badLegs | legsOverCap | joinRoot | badAbsence | absenceWindowOverCap
  deriving DecidableEq

def RejectReason.label : RejectReason → String
  | .badJson => "bad_json"
  | .emptyWhere => "empty_where"
  | .overCap => "over_cap"
  | .unknownOp => "unknown_op"
  | .groupByRoot => "group_by_root"
  | .windowOverCap => "window_over_cap"
  | .windowCountOverCap => "window_count_over_cap"
  | .badLegs => "bad_legs"
  | .legsOverCap => "legs_over_cap"
  | .joinRoot => "join_root"
  | .badAbsence => "bad_absence"
  | .absenceWindowOverCap => "absence_window_over_cap"

/-- Why a compilation gives no rule: a reason for the metric, or an exception. -/
inductive CompileStop where
  | rejected (reason : RejectReason)
  | raised (e : PyError)
  deriving DecidableEq

abbrev Compiled := Except CompileStop

def reject (reason : RejectReason) : Compiled α := .error (.rejected reason)

def lift : Except PyError α → Compiled α
  | .ok a => .ok a
  | .error e => .error (.raised e)

def envelopeRoots : List String := ["_centralops", "normalized", "raw"]

def absenceMinWindowSeconds : Int := 60

/-- `int(column or default)`. -/
def columnOr (default : Int) : Option Int → Int
  | some n => if n = 0 then default else n
  | none => default

/-- `raw or "[]"`, parsed. -/
def loadsList (rt : MappingRuntime) (raw : Option String) : Option (List Json) :=
  match rt.loads (if raw.getD "" = "" then "[]" else raw.getD "") with
  | .ok (.list xs) => some xs
  | _ => none

def dictsOf (xs : List Json) : List Obj :=
  xs.filterMap (fun v => match v with
    | .obj o => some o
    | _ => none)

def validateWhereJson (rt : MappingRuntime) (raw : Option String) : Compiled (List Obj) :=
  match loadsList rt raw with
  | none => reject .badJson
  | some parsed => if dictsOf parsed = [] then reject .emptyWhere else .ok (dictsOf parsed)

/-- `s.strip()`. -/
def strip (s : String) : String := String.ofList (pyStrip s.toList)

/-- What `validate_legs_json` asks of one leg. -/
def wellFormedLeg (leg : Obj) : Bool :=
  (match leg.getN "where" with
    | .list xs => dictsOf xs ≠ []
    | _ => false) &&
  (match leg.getN "join_path" with
    | .str s => s ≠ ""
    | _ => false) &&
  (match leg.getN "stream" with
    | .null => true
    | .str s => strip s ≠ ""
    | _ => false)

def validateLegsJson (rt : MappingRuntime) (cfg : InflightSettings) (raw : Option String) :
    Compiled (List Obj) :=
  match loadsList rt raw with
  | none => reject .badLegs
  | some parsed =>
    let legs := dictsOf parsed
    if legs.length < 2 ∨ legs.length ≠ parsed.length then reject .badLegs
    else if cfg.maxLegs < legs.length then reject .legsOverCap
    else if legs.all wellFormedLeg then .ok legs
    else reject .badLegs

/-- `frozenset(value)`, and a tuple when some member is unhashable. -/
def compileMembers (xs : List Json) : Members :=
  if xs.any (fun v => match v with
    | .list _ | .obj _ => true
    | _ => false) then .tuple xs
  else .frozenset xs

/-- `_as_float`. -/
def asFloat (rt : MappingRuntime) (v : Json) : Compiled PyFloat := do
  match ← lift (num rt v) with
  | some x => .ok x
  | none => reject .badJson

/-- The test of one clause. An operator that is not a string is no operator. -/
def compileTest (rt : MappingRuntime) (op : Op) (value : Json) : Compiled ClauseTest :=
  match op with
  | .eq => .ok (.eq value)
  | .ne => .ok (.ne value)
  | .contains => .ok (.contains value)
  | .gt => (asFloat rt value).map (.compare .gt)
  | .gte => (asFloat rt value).map (.compare .ge)
  | .lt => (asFloat rt value).map (.compare .lt)
  | .lte => (asFloat rt value).map (.compare .le)
  | .isIn => match value with
    | .list xs => .ok (.isIn (compileMembers xs))
    | _ => reject .badJson
  | .nin => match value with
    | .list xs => .ok (.nin (compileMembers xs))
    | _ => reject .badJson
  | .hasValue => .ok (.hasValue value.truthy)
  | .unknown => reject .unknownOp

/-- `str(c.get("op") or "eq")`. No other value than a string prints as an operator. -/
def clauseOp (c : Obj) : Op :=
  let op := c.getN "op"
  if !op.truthy then .eq
  else match op with
    | .str name => .ofName name
    | _ => .unknown

def compileClause (rt : MappingRuntime) (c : Obj) : Compiled CompiledClause :=
  if clauseOp c = .unknown then reject .unknownOp
  else match c.getN "field" with
    | .str fieldName =>
      if fieldName = "" then reject .badJson
      else do
        let test ← compileTest rt (clauseOp c) (c.getN "value")
        .ok ⟨splitDots fieldName, test⟩
    | _ => reject .badJson

def ClauseTest.isExistence : ClauseTest → Bool
  | .hasValue _ => true
  | _ => false

def pathLe (p q : List String) : Prop := ¬ q < p

instance : DecidableRel pathLe := fun p q => inferInstanceAs (Decidable (¬ q < p))

def unguardedPaths (cs : List CompiledClause) : List (List String) :=
  let negative := (cs.filter (fun c => c.test.isNegative)).map (fun c => c.path)
  let guarded := (cs.filter (fun c => c.test.isExistence)).map (fun c => c.path)
  (negative.dedup.filter (fun p : List String => p ∉ guarded)).insertionSort pathLe

def compileClauses (rt : MappingRuntime) (cfg : InflightSettings) (raw : List Obj) :
    Compiled (List CompiledClause) :=
  if cfg.maxWhereClauses < raw.length then reject .overCap
  else do
    let cs ← raw.mapM (compileClause rt)
    .ok (cs ++ (unguardedPaths cs).map (fun p => ⟨p, .hasValue true⟩))

def inEnvelope (path : List String) : Bool := decide (path.headD "" ∈ envelopeRoots)

section Rows
variable (rt : MappingRuntime) (cfg : InflightSettings) (row : CorrelationRule)

/-- The fields that every kind of rule takes from its row in the same way. -/
def ruleFrame (groupByPath : Option (List String)) (clauses : List CompiledClause) :
    CompiledInflightRule where
  ruleId := row.id
  name := row.name
  severityId := columnOr 4 (some row.severityId)
  suppressionWindowSeconds := row.suppressionWindowSeconds.getD 3600
  groupByPath := groupByPath
  clauses := clauses
  emitEvent := row.emitEvent
  maxDedupKeys := row.maxDedupKeys.filter (fun n => n ≠ 0)

def streamClause (leg : Obj) : List CompiledClause :=
  match leg.getN "stream" with
  | .str s => if s = "" then [] else [⟨["_centralops", "stream"], .eq (.str (strip s))⟩]
  | _ => []

def compileLeg (total : Nat) (index : Nat) (leg : Obj) : Compiled CompiledInflightRule := do
  let clauses ← match leg.getN "where" with
    | .list xs => compileClauses rt cfg (dictsOf xs)
    | _ => reject .badLegs
  let joinPath ← match leg.getN "join_path" with
    | .str s => .ok (splitDots s)
    | _ => reject .badLegs
  if !inEnvelope joinPath then reject .joinRoot
  else do
    let label ←
      if (leg.getN "label").truthy then lift (documents.str rt () (leg.getN "label"))
      else .ok ("leg" ++ toString index)
    .ok { ruleFrame row (some joinPath) (clauses ++ streamClause leg) with
      minCount := 1
      windowSeconds := columnOr 0 row.windowSeconds
      legIndex := some index
      legsTotal := total
      legLabel := label }

def compileSequence : Compiled (List CompiledInflightRule) := do
  let legs ← validateLegsJson rt cfg row.legsJson
  let window := columnOr 0 row.windowSeconds
  if window ≤ 0 then reject .badLegs
  else if cfg.maxWindowSeconds < window then reject .windowOverCap
  else legs.zipIdx.mapM (fun p => compileLeg rt cfg row legs.length p.2 p.1)

/-- `forget_seconds_for`. -/
def forgetSecondsFor (window : Int) : Int :=
  match row.absenceForgetSeconds with
  | some n => if n ≤ 0 then 3 * window else n
  | none => 3 * window

def compileAbsence : Compiled CompiledInflightRule := do
  let raw ← validateWhereJson rt row.whereJson
  let clauses ← compileClauses rt cfg raw
  let groupBy := row.groupByField.getD ""
  let window := columnOr 0 row.windowSeconds
  let forget := forgetSecondsFor row window
  if strip groupBy = "" then reject .badAbsence
  else if !inEnvelope (splitDots groupBy) then reject .groupByRoot
  else if window < absenceMinWindowSeconds then reject .badAbsence
  else if cfg.absenceMaxWindowSeconds < window then reject .absenceWindowOverCap
  else if forget < window ∨ cfg.absenceMaxForgetSeconds < forget then reject .badAbsence
  else .ok { ruleFrame row (some (splitDots groupBy)) clauses with
    minCount := 1
    windowSeconds := window
    absence := true
    forgetSeconds := forget }

/-- A rule that needs one match, or `min_count` of them inside a window. -/
def compileClassic : Compiled CompiledInflightRule := do
  let raw ← validateWhereJson rt row.whereJson
  let clauses ← compileClauses rt cfg raw
  let groupBy := row.groupByField.getD ""
  let count := columnOr 1 row.minCount
  let window := columnOr 0 row.windowSeconds
  let groupByPath := if groupBy = "" then none else some (splitDots groupBy)
  if groupBy ≠ "" ∧ !inEnvelope (splitDots groupBy) then reject .groupByRoot
  else if 1 < count ∧ 0 < window then
    if cfg.maxWindowSeconds < window then reject .windowOverCap
    else if cfg.maxWindowCount < count then reject .windowCountOverCap
    else .ok { ruleFrame row groupByPath clauses with minCount := count, windowSeconds := window }
  else .ok { ruleFrame row groupByPath clauses with minCount := 1, windowSeconds := 0 }

def compileRow : Compiled (List CompiledInflightRule) :=
  if row.ruleType = "sequence" then compileSequence rt cfg row
  else if row.ruleType = "absence" then (compileAbsence rt cfg row).map (fun rule => [rule])
  else (compileClassic rt cfg row).map (fun rule => [rule])

end Rows

/-- Whether some path occurs in two clauses. -/
def repeatsPath (seen : List (List String)) : List CompiledClause → Bool
  | [] => false
  | c :: cs => decide (c.path ∈ seen) || repeatsPath (c.path :: seen) cs

/-- The rules that the rows of one cycle give. A rejected row is left out, an exception ends
the load. -/
def loadRules (rt : MappingRuntime) (cfg : InflightSettings) :
    List CorrelationRule → Except PyError (List CompiledInflightRule)
  | [] => .ok []
  | row :: rows =>
    match compileRow rt cfg row with
    | .ok rules => (loadRules rt cfg rows).map (rules ++ ·)
    | .error (.rejected _) => loadRules rt cfg rows
    | .error (.raised e) => .error e

def loadRuleSet (rt : MappingRuntime) (cfg : InflightSettings) (rows : List CorrelationRule) :
    Except PyError CompiledRuleSet :=
  (loadRules rt cfg rows).map
    (fun rules => ⟨rules, repeatsPath [] (rules.flatMap (fun rule => rule.clauses))⟩)

end CentralOps
