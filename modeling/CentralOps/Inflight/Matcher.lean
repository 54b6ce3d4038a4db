import CentralOps.Normalize.Document

namespace CentralOps
set_option autoImplicit true

/-- The right side of `in` and `nin`: a set, or a tuple when a member has no hash. -/
inductive Members where
  | frozenset (xs : List Json)
  | tuple (xs : List Json)
  deriving DecidableEq

/-- An operator with its right side in final form. The orderings are the `numeric` ones. -/
inductive ClauseTest where
  | eq (value : Json)
  | ne (value : Json)
  | contains (value : Json)
  | compare (op : Ordering4) (value : PyFloat)
  | isIn (value : Members)
  | nin (value : Members)
  | hasValue (value : Bool)
  deriving DecidableEq

structure CompiledClause where
  path : List String
  test : ClauseTest
  deriving DecidableEq

structure CompiledInflightRule where
  ruleId : Int
  name : String
  severityId : Int
  suppressionWindowSeconds : Int
  groupByPath : Option (List String)
  clauses : List CompiledClause
  emitEvent : Bool := false
  maxDedupKeys : Option Int := none
  minCount : Int := 1
  windowSeconds : Int := 0
  legIndex : Option Nat := none
  legsTotal : Nat := 0
  legLabel : String := ""
  absence : Bool := false
  forgetSeconds : Int := 0
  deriving DecidableEq

structure CompiledRuleSet where
  rules : List CompiledInflightRule
  sharePaths : Bool
  deriving DecidableEq

/-- The objects of a parsed document, for `==`, `in` and `str`. -/
def documents : Objects Unit Json := jsonObjects (fun _ v => .ok v)

/-- From here on an integer rounds to a float beyond the largest one. -/
@[irreducible] def floatIntBound : Nat := 2 ^ 1024 - 2 ^ 970

/-- The nearest multiple with 53 significant bits, a tie going to the even one. -/
def roundHalfEven (m : Nat) : Nat :=
  let unit := 2 ^ (m.log2 - 52)
  let q := m / unit
  let r := m % unit
  if unit < 2 * r ∨ 2 * r = unit ∧ q % 2 = 1 then (q + 1) * unit else q * unit

/-- `float(n)`; `none` is Python's `OverflowError`. -/
def floatOfInt (n : Int) : Option PyFloat :=
  if floatIntBound ≤ n.natAbs then none
  else some (.finite (n.sign * (roundHalfEven n.natAbs : Int)))

section Evaluator
variable (rt : MappingRuntime)

def num : Json → Except PyError (Option PyFloat)
  | .bool b => .ok (some (.finite (if b then 1 else 0)))
  | .int n => match floatOfInt n with
    | some x => .ok (some x)
    | none => .error .overflowError
  | .float x => .ok (some x)
  | .str s => .ok (rt.floatOf s)
  | .null | .list _ | .obj _ => .ok none

/-- `v in value`. A `frozenset` holds scalars only, and has no answer for a list or a dict. -/
def Members.has (v : Json) : Members → Except PyError Bool
  | .frozenset xs => match v with
    | .list _ | .obj _ => .error .typeError
    | v => .ok (xs.any (fun w => documents.same v w || v.pyEq w))
  | .tuple xs => documents.isIn () rt.stackLimit v xs

/-- The comparisons inside the handler of `compare_values`. -/
def rawCompare (test : ClauseTest) (actual : Json) : Except PyError Bool :=
  match test with
  | .eq value => documents.eq () rt.stackLimit actual value
  | .ne value => (documents.eq () rt.stackLimit actual value).map (!·)
  | .contains value => do
    let needle ← documents.str rt () value
    let hay ← documents.str rt () actual
    .ok (isSubstring needle hay)
  | .isIn value => value.has rt actual
  | .nin value => (value.has rt actual).map (!·)
  | .compare _ _ | .hasValue _ => .ok false

def noMatch : Except PyError Bool → Except PyError Bool
  | .error .typeError => .ok false
  | r => r

def ClauseTest.isNegative : ClauseTest → Bool
  | .ne _ | .nin _ => true
  | _ => false

/-- `compare_values`, after the numeric coercion of the left side where the clause asks for it. -/
def compareClause (test : ClauseTest) (actual : Json) : Except PyError Bool :=
  match test with
  | .hasValue value => .ok (decide (actual ≠ .null) == value)
  | .compare op value => do
    match ← num rt actual with
    | some x => .ok (op.floats x value)
    | none => .ok false
  | test => if actual = .null then .ok test.isNegative else noMatch (rawCompare rt test actual)

def evalClause (envelope : Json) (c : CompiledClause) : Except PyError Bool :=
  compareClause rt c.test (getPath envelope c.path)

def evalClauses (envelope : Json) : List CompiledClause → Except PyError Bool
  | [] => .ok true
  | c :: cs => do
    if ← evalClause rt envelope c then evalClauses envelope cs else .ok false

def evaluateInflight (envelope : Json) :
    List CompiledInflightRule → Except PyError (List CompiledInflightRule)
  | [] => .ok []
  | rule :: rules => do
    let isMatch ← evalClauses rt envelope rule.clauses
    let matched ← evaluateInflight envelope rules
    .ok (if isMatch then rule :: matched else matched)

abbrev PathCache := List (List String × Json)

def readPath (envelope : Json) (path : List String) (cache : PathCache) : Json × PathCache :=
  match cache.lookup path with
  | some v => (v, cache)
  | none => (getPath envelope path, (path, getPath envelope path) :: cache)

def evalClausesCached (envelope : Json) :
    List CompiledClause → PathCache → Except PyError (Bool × PathCache)
  | [], cache => .ok (true, cache)
  | c :: cs, cache => do
    let read := readPath envelope c.path cache
    if ← compareClause rt c.test read.1 then evalClausesCached envelope cs read.2
    else .ok (false, read.2)

def evaluateCached (envelope : Json) :
    List CompiledInflightRule → PathCache → Except PyError (List CompiledInflightRule)
  | [], _ => .ok []
  | rule :: rules, cache => do
    let turn ← evalClausesCached rt envelope rule.clauses cache
    let matched ← evaluateCached envelope rules turn.2
    .ok (if turn.1 then rule :: matched else matched)

def evaluateRuleset (envelope : Json) (ruleset : CompiledRuleSet) :
    Except PyError (List CompiledInflightRule) :=
  if !ruleset.sharePaths then evaluateInflight rt envelope ruleset.rules
  else evaluateCached rt envelope ruleset.rules []

end Evaluator

end CentralOps
