import CentralOps.Normalize.Objects

namespace CentralOps
set_option autoImplicit true

/-- A compiled `source`: the dot-path resolver or a JMESPath expression. -/
inductive Source where
  | dotPath (keys : List String)
  | jmespath (expr : String)
  deriving DecidableEq

structure NamedSource where
  str : String
  source : Source

/-- A source whose string starts with `_` is read from the extracted fields. -/
def NamedSource.isExtracted (src : NamedSource) : Bool := src.str.startsWith "_"

inductive Predicate (ν : Type) where
  | pathExists (src : NamedSource)
  | equals (src : NamedSource) (literal : ν)
  | isIn (src : NamedSource) (literals : List ν)
  | negated (child : Predicate ν)

/-- `collect_predicate_source_strs`. -/
def Predicate.sourceStrs : Predicate ν → List String
  | .pathExists src | .equals src _ | .isIn src _ => [src.str]
  | .negated child => child.sourceStrs

inductive TypeCast where
  | isoToEpoch | epochToIso | toStr | toInt | toBool | scoreToPercent | lowercase | uppercase
  | trim | toArray | dedup | mitreTacticToOcsf
  deriving DecidableEq

def typeCasts : List (String × TypeCast) :=
  [ ("iso_to_epoch", .isoToEpoch), ("epoch_to_iso", .epochToIso), ("to_str", .toStr),
    ("to_int", .toInt), ("to_bool", .toBool), ("score_to_percent", .scoreToPercent),
    ("lowercase", .lowercase), ("uppercase", .uppercase), ("trim", .trim),
    ("to_array", .toArray), ("dedup", .dedup), ("mitre_tactic_to_ocsf", .mitreTacticToOcsf) ]

structure CompiledRule (ν : Type) where
  target : String
  targetPath : List String
  /-- `none` for a rule with `const`. -/
  source : Option NamedSource
  const : Option ν
  default : Option ν
  valueMap : Option (List (String × ν))
  preCast : Option String
  typeCast : Option String
  required : Bool
  fallbacks : List NamedSource
  whenPredicate : Option (Predicate ν)
  defaultFromIngest : Bool

/-- `source_root == "extracted"`. -/
def CompiledRule.readsExtracted (rule : CompiledRule ν) : Bool :=
  (rule.source.map NamedSource.isExtracted).getD false

structure CompiledArrayBuilderItem where
  name : String
  type : String
  /-- An `int`, and so perhaps a `bool`. -/
  typeId : Scalar
  source : NamedSource
  explode : Bool
  skipNull : Bool

structure CompiledArrayBuilderRule where
  targetPath : List String
  targetStr : String
  items : List CompiledArrayBuilderItem
  dedupBy : List String

inductive AnyRule (ν : Type) where
  | scalar (rule : CompiledRule ν)
  | arrayBuilder (rule : CompiledArrayBuilderRule)

def AnyRule.targetPath : AnyRule ν → List String
  | .scalar rule => rule.targetPath
  | .arrayBuilder rule => rule.targetPath

/-- The one registered operator is `json_parse`. -/
structure CompiledPreprocessOp where
  source : NamedSource
  target : String
  tolerant : Bool

structure CompiledReductionSpec where
  pathStr : String
  pathParts : List String
  maxItems : Option Nat
  maxBytes : Option Nat
  drop : Bool
  keepOnly : Option (List String)
  dropNulls : Bool

def CompiledReductionSpec.isGlobal (spec : CompiledReductionSpec) : Bool :=
  spec.dropNulls && spec.pathParts.isEmpty

structure CompiledRules (ν : Type) where
  preprocessOps : List CompiledPreprocessOp
  rules : List (AnyRule ν)
  rawReduction : List CompiledReductionSpec

def nonBlank (s : String) : Bool := !(pyStrip s.toList).isEmpty

/-- `s.split(".")`. -/
def splitDots (s : String) : List String := (s.toList.splitOn '.').map String.ofList

def isIdentifier : List Char → Bool
  | [] => false
  | c :: cs => (c.isAlpha || c == '_') && cs.all (fun d => d.isAlphanum || d == '_')

/-- `_DOT_PATH.match(expr)`; its `$` also accepts one final newline. -/
def isDotPath (expr : String) : Bool :=
  let cs := expr.toList
  let body := if cs.getLast? = some '\n' then cs.dropLast else cs
  (body.splitOn '.').all isIdentifier

/-- The library on ASCII text, with dot paths for expressions and no dates. -/
def MappingRuntime.ascii : MappingRuntime where
  toRuntime := .ascii
  stackLimit := 1000
  jsonMaxBytes := 1048576
  jmespathValid := isDotPath
  fastpathEnabled := true
  fromisoformat _ := none
  floatOf _ := none
  roundTimes q n := (q * n).floor
  isoOfMillis _ := ""
  timestampError _ := .valueError
  utf8Size t := some t.utf8ByteSize
  utf8Clip n t := String.ofList (t.toList.take n)
  loads _ := .error ""

def compileSource (rt : MappingRuntime) (expr : String) : Option NamedSource :=
  if !rt.jmespathValid expr then none
  else if rt.fastpathEnabled && isDotPath expr then some ⟨expr, .dotPath (splitDots expr)⟩
  else some ⟨expr, .jmespath expr⟩

/-- `_validate_target`. -/
def validateTarget (target : String) : Option (List String) :=
  let parts := (splitDots target).filter (fun p => p ≠ "")
  if !nonBlank target || parts.isEmpty then none else some parts

section Compile
variable (rt : MappingRuntime) (view : ν → Shape Scalar ν)

def asStr (v : ν) : Option String :=
  match view v with
  | .scalar (.str s) => some s
  | _ => none

def asText (v : ν) : Option String := (asStr view v).filter nonBlank

def asDict (v : ν) : Option (List (String × ν)) :=
  match view v with
  | .dict fields => some fields
  | _ => none

def asList (v : ν) : Option (List ν) :=
  match view v with
  | .list xs => some xs
  | _ => none

def isNull (v : ν) : Bool :=
  match view v with
  | .scalar .null => true
  | _ => false

/-- `bool(v)`. -/
def isTruthy (v : ν) : Bool :=
  match view v with
  | .scalar x => x.toJson.truthy
  | .list xs => !xs.isEmpty
  | .dict fields => !fields.isEmpty

/-- `d.get(k)`, when it is not `None`. -/
def given (fields : List (String × ν)) (k : String) : Option ν :=
  (fields.lookup k).filter (fun v => !isNull view v)

def flag (fields : List (String × ν)) (k : String) (default : Bool) : Bool :=
  ((fields.lookup k).map (isTruthy view)).getD default

/-- An optional field, rejected when `parse` rejects it. -/
def optional (fields : List (String × ν)) (k : String) (parse : ν → Option α) :
    Option (Option α) :=
  match given view fields k with
  | none => some none
  | some v => (parse v).map some

/-- `_compile_jmespath`. -/
def compileText (v : ν) : Option NamedSource := (asText view v).bind (compileSource rt)

def predicateKeys : List String := ["exists", "equals", "in", "not"]

/-- `compile_predicate`, down to the depth that the interpreter's stack allows. -/
def compilePredicate : Nat → ν → Option (Predicate ν)
  | 0, _ => none
  | fuel + 1, spec => do
    let fields ← asDict view spec
    match predicateKeys.filter (fun k => (fields.lookup k).isSome) with
    | ["exists"] => do
      let src ← (fields.lookup "exists").bind (compileText rt view)
      some (.pathExists src)
    | ["equals"] => do
      let inner ← (fields.lookup "equals").bind (asDict view)
      let src ← (inner.lookup "source").bind (compileText rt view)
      let value ← inner.lookup "value"
      some (.equals src value)
    | ["in"] => do
      let inner ← (fields.lookup "in").bind (asDict view)
      let src ← (inner.lookup "source").bind (compileText rt view)
      let values ← (inner.lookup "values").bind (asList view)
      some (.isIn src values)
    | ["not"] => do
      let child ← (fields.lookup "not").bind (compilePredicate fuel)
      some (.negated child)
    | _ => none

/-- Exactly one of `source` and `const`. -/
def ruleSource (fields : List (String × ν)) : Option (Option NamedSource) :=
  match fields.lookup "source", fields.lookup "const" with
  | some v, none => (compileText rt view v).map some
  | none, some _ => some none
  | _, _ => none

def preCastName (v : ν) : Option String :=
  (asStr view v).filter (fun name => (typeCasts.lookup name).isSome)

def fallbackSources (v2 : Bool) (source : Option NamedSource) (v : ν) :
    Option (List NamedSource) := do
  let primary ← source
  let exprs ← asList view v
  if !v2 then none
  else exprs.mapM fun e => do
    let src ← (asStr view e).bind (compileSource rt)
    if src.isExtracted = primary.isExtracted then some src else none

/-- `expected_always_default` is for DSL v2 and a `bool`. -/
def expectedAlwaysDefaultOk (v2 : Bool) (fields : List (String × ν)) : Bool :=
  match fields.lookup "expected_always_default" with
  | none => true
  | some v => match view v with
    | .scalar (.bool _) => v2
    | _ => false

def compileSingleRule (v2 : Bool) (rule : ν) : Option (CompiledRule ν) := do
  let fields ← asDict view rule
  let target ← (fields.lookup "target").bind (asStr view)
  let targetPath ← validateTarget target
  let source ← ruleSource rt view fields
  let typeCast ← optional view fields "type_cast" (asStr view)
  let preCast ← optional view fields "pre_cast" (preCastName view)
  let valueMap ← optional view fields "value_map" (asDict view)
  let fallbacks ← optional view fields "fallback_source" (fallbackSources rt view v2 source)
  let whenPredicate ← optional view fields "when"
    (fun v => if v2 then compilePredicate rt view rt.stackLimit v else none)
  let defaultFrom ← optional view fields "default_from"
    (fun v => (asStr view v).filter (fun name => v2 && name == "ingest_time"))
  if (v2 && target.startsWith "_") || !expectedAlwaysDefaultOk view v2 fields then none
  else some {
      target := target
      targetPath := targetPath
      source := source
      const := fields.lookup "const"
      default := fields.lookup "default"
      valueMap := valueMap
      preCast := preCast
      typeCast := typeCast
      required := flag view fields "required" false
      fallbacks := fallbacks.getD []
      whenPredicate := whenPredicate
      defaultFromIngest := defaultFrom.isSome }

def arrayBuilderItemFields : List String :=
  ["name", "type", "type_id", "source", "explode", "skip_null"]

/-- `_compile_item`. -/
def compileItem (ruleSkipNull : Bool) (item : ν) : Option CompiledArrayBuilderItem := do
  let fields ← asDict view item
  let name ← (fields.lookup "name").bind (asText view)
  let type ← (fields.lookup "type").bind (asText view)
  let typeId ← (fields.lookup "type_id").bind fun v =>
    match view v with
    | .scalar (.int n) => some (Scalar.int n)
    | .scalar (.bool b) => some (Scalar.bool b)
    | _ => none
  let source ← (fields.lookup "source").bind (compileText rt view)
  if !(fields.map Prod.fst).all arrayBuilderItemFields.contains then none
  else some {
      name := name
      type := type
      typeId := typeId
      source := source
      explode := flag view fields "explode" false
      skipNull := flag view fields "skip_null" ruleSkipNull }

def arrayBuilderRuleFields : List String := ["target", "kind", "items", "skip_null", "dedup_by"]

def compileArrayBuilderRule (rule : ν) : Option CompiledArrayBuilderRule := do
  let fields ← asDict view rule
  let target ← (fields.lookup "target").bind (asStr view)
  let targetPath ← validateTarget target
  let items ← (fields.lookup "items").bind (asList view)
  let dedupBy ← match fields.lookup "dedup_by" with
    | none => some []
    | some v => (asList view v).bind (fun names => names.mapM (asText view))
  let compiled ← items.mapM (compileItem rt view (flag view fields "skip_null" true))
  if !(fields.map Prod.fst).all arrayBuilderRuleFields.contains then none
  else some ⟨targetPath, target, compiled, dedupBy⟩

def compilePreprocessOp (item : ν) : Option CompiledPreprocessOp := do
  let fields ← asDict view item
  let op ← (fields.lookup "op").bind (asText view)
  let source ← (fields.lookup "source").bind (compileText rt view)
  let target ← (fields.lookup "target").bind (asText view)
  if op ≠ "json_parse" || !target.startsWith "_" then none
  else some ⟨source, target, flag view fields "tolerant" false⟩

def listWildcard : String := "[]"

/-- One segment between dots; a final `[]` becomes a segment of its own. -/
def splitSegment (segment : String) : List String :=
  if segment = "" then []
  else if segment.toList.reverse.take 2 = [']', '['] then
    let head := String.ofList (segment.toList.reverse.drop 2).reverse
    if head = "" then [listWildcard] else [head, listWildcard]
  else [segment]

/-- `_split_path` of the reduction block. -/
def splitReductionPath (path : String) : List String := (splitDots path).flatMap splitSegment

/-- A positive `int` that is not a `bool`. -/
def positiveInt (v : ν) : Option Nat :=
  match view v with
  | .scalar (.int n) => if 0 < n then some n.toNat else none
  | _ => none

def keepOnlyNames (v : ν) : Option (List String) := do
  let names ← asList view v
  names.mapM (fun w => (asStr view w).filter (fun s => s ≠ ""))

def compileReductionSpec (item : ν) : Option CompiledReductionSpec := do
  let fields ← asDict view item
  let dropNulls := flag view fields "drop_nulls" false
  match given view fields "path" with
  | none => if dropNulls then some ⟨"", [], none, none, false, none, true⟩ else none
  | some v => do
    let path ← asText view v
    let keepOnly ← optional view fields "keep_only" (keepOnlyNames view)
    let maxItems ← optional view fields "max_items" (positiveInt view)
    let maxBytes ← optional view fields "max_bytes" (positiveInt view)
    let drop := flag view fields "drop" false
    let sized := maxItems.isSome || maxBytes.isSome || keepOnly.isSome
    if (splitReductionPath path).isEmpty || !(sized || drop || dropNulls) || (drop && sized) then
      none
    else some ⟨path, splitReductionPath path, maxItems, maxBytes, drop, keepOnly, dropNulls⟩

def compileRawReduction (fields : List (String × ν)) : Option (List CompiledReductionSpec) := do
  let specs ← optional view fields "raw_reduction"
    (fun v => (asList view v).bind (fun items => items.mapM (compileReductionSpec view)))
  some (specs.getD [])

def compileV1 (rules : List ν) : Option (CompiledRules ν) := do
  let compiled ← rules.mapM fun rule => do
    let fields ← asDict view rule
    if (fields.lookup "kind").isSome then none
    else (compileSingleRule rt view false rule).map AnyRule.scalar
  some ⟨[], compiled, []⟩

/-- A rule of DSL v2, by its `kind`. -/
def compileRuleV2 (rule : ν) : Option (AnyRule ν) := do
  let fields ← asDict view rule
  let kind ← match fields.lookup "kind" with
    | none => some "scalar"
    | some v => asStr view v
  if kind = "scalar" then (compileSingleRule rt view true rule).map AnyRule.scalar
  else if kind = "array_builder" then
    (compileArrayBuilderRule rt view rule).map AnyRule.arrayBuilder
  else none

def compileV2 (payload : List (String × ν)) : Option (CompiledRules ν) := do
  let preprocess ← optional view payload "preprocess"
    (fun v => (asList view v).bind (fun items => items.mapM (compilePreprocessOp rt view)))
  let rules ← (payload.lookup "rules").bind (asList view)
  let compiled ← rules.mapM (compileRuleV2 rt view)
  let rawReduction ← compileRawReduction view payload
  if rules.isEmpty then none
  else some ⟨preprocess.getD [], compiled, rawReduction⟩

/-- `none` where `compile_rules` raises. Without a version the shape of the document decides. -/
def compileRules (doc : ν) (dslVersion : Option Int) : Option (CompiledRules ν) :=
  match view doc, dslVersion with
  | .list rules, none | .list rules, some 1 => compileV1 rt view rules
  | .dict payload, none | .dict payload, some 2 => compileV2 rt view payload
  | _, _ => none

end Compile
end CentralOps
