import CentralOps.Normalize.Operators

namespace CentralOps
set_option autoImplicit true

section Search
variable {σ ν : Type} (S : Objects σ ν)

/-- `value.get(key)`; what is not a dict has no fields. -/
def getField (s : σ) (v : ν) (key : String) : ν :=
  match S.shape s v with
  | .dict fields => (fields.lookup key).getD (S.scalar .null)
  | _ => S.scalar .null

/-- `DotPathResolver.search`. -/
def dotSearch (s : σ) (keys : List String) (v : ν) : ν := keys.foldl (getField S s) v

def Source.search (src : Source) (v : ν) : Proc σ Exc ν := fun s =>
  match src with
  | .dotPath keys => .ok (dotSearch S s keys v) s
  | .jmespath expr =>
    match S.search expr v s with
    | (.ok w, s') => .ok w s'
    | (.error msg, s') => .raised (.jmespath msg) s'

/-- `_safe_search`. -/
def safeSearch (src : NamedSource) (v : ν) : Proc σ Exc ν := do
  match ← Proc.attempt (src.source.search S v) with
  | .ok w => pure w
  | .error _ => pure (S.scalar .null)

end Search

section Phases
variable {σ ν : Type} (S : Objects σ ν) (rt : MappingRuntime)

def evaluatePredicate (data : ν) : Predicate ν → Proc σ Exc Bool
  | .pathExists src => do
    let v ← safeSearch S src data
    let s ← Proc.get
    pure (!S.isNone s v)
  | .equals src literal => do
    let v ← safeSearch S src data
    let s ← Proc.get
    liftExc (uncaught (S.eq s rt.stackLimit v literal))
  | .isIn src literals => do
    let v ← safeSearch S src data
    let s ← Proc.get
    liftExc (uncaught (S.isIn s rt.stackLimit v literals))
  | .negated child => do
    let b ← evaluatePredicate data child
    pure (!b)

def jsonParse (tolerant : Bool) (v : ν) : Proc σ Exc ν := do
  match ← S.look v with
  | .scalar .null => pure (S.scalar .null)
  | .scalar (.str t) =>
    match rt.utf8Size t with
    | none => Proc.raise (.python .valueError)
    | some size =>
      if rt.jsonMaxBytes < size then
        Proc.raise (.operatorSize ("json_parse: payload excede " ++ toString rt.jsonMaxBytes ++
          " bytes (" ++ toString size ++ " bytes)"))
      else match rt.loads t with
        | .ok j => fun s => .ok (S.load j s).1 (S.load j s).2
        | .error msg =>
          if tolerant then pure (S.scalar .null)
          else liftExc (operatorError ("json_parse: JSON inválido: " ++ msg))
  | c =>
    if tolerant then pure (S.scalar .null)
    else liftExc (operatorError ("json_parse: espera str, recebeu " ++ typeName c))

/-- `consumed.add(x)`. -/
def consume (consumed : List String) (x : String) : List String :=
  if x ∈ consumed then consumed else consumed ++ [x]

def sourceMark (src : NamedSource) : String := "source:" ++ src.str

/-- The `try` block of one preprocess op. -/
def preprocessBody (raw extracted : ν) (consumed : List String) (op : CompiledPreprocessOp) :
    Proc σ Exc (List String) := do
  let value ← op.source.source.search S raw
  let result ← jsonParse S rt op.tolerant value
  S.write extracted [op.target] result
  let s ← Proc.get
  pure (if S.isNone s value then consumed else consume consumed (sourceMark op.source))

def preprocessOp (raw extracted : ν) (consumed : List String) (op : CompiledPreprocessOp) :
    Proc σ Exc (List String) := do
  match ← Proc.attempt (preprocessBody S rt raw extracted consumed op) with
  | .ok consumed => pure consumed
  | .error (.operatorSize _) =>
    Proc.raise (.mapping ("preprocess json_parse(" ++ rt.reprStr op.source.str ++
      ") excedeu limite de tamanho: evento quarentenado (proteção DoS)"))
  | .error (.operator msg) =>
    if op.tolerant then do
      S.write extracted [op.target] (S.scalar .null)
      pure consumed
    else Proc.raise (.mapping ("preprocess json_parse(" ++ rt.reprStr op.source.str ++
      ") falhou: " ++ msg))
  | .error e => Proc.raise e

/-- The next fallback is tried while nothing was found. -/
def resolveFallbacks (root : ν) : List NamedSource → ν → Proc σ Exc ν
  | [], v => pure v
  | fb :: fbs, v => do
    let s ← Proc.get
    if S.isNone s v then do
      let w ← fb.source.search S root
      resolveFallbacks root fbs w
    else pure v

def resolveValue (rule : CompiledRule ν) (raw extracted : ν) : Proc σ Exc ν :=
  match rule.const, rule.source with
  | some v, _ => pure v
  | none, none =>
    Proc.raise (.mapping ("regra " ++ rt.reprStr rule.target ++ ": sem source nem const"))
  | none, some src => do
    let root := if rule.readsExtracted then extracted else raw
    let v ← src.source.search S root
    resolveFallbacks S root rule.fallbacks v

/-- `except OperatorError`, with the error that is raised instead. -/
def catchOperator (wrap : String → Exc) (m : Proc σ Exc α) : Proc σ Exc α := do
  match ← Proc.attempt m with
  | .ok a => pure a
  | .error e => if e.isOperator then Proc.raise (wrap (e.text rt)) else Proc.raise e

def ruleError (rule : CompiledRule ν) (stage : String) (text : String) : Exc :=
  .mapping ("regra " ++ rt.reprStr rule.target ++ ": " ++ stage ++ text)

/-- `_resolve_value` under `except Exception`. -/
def resolveRule (rule : CompiledRule ν) (raw extracted : ν) : Proc σ Exc ν := do
  match ← Proc.attempt (resolveValue S rt rule raw extracted) with
  | .ok v => pure v
  | .error e => Proc.raise (ruleError rt rule "erro ao resolver source: " (e.text rt))

def castStage (rule : CompiledRule ν) (stage : String) (cast : Option String) (skip : Bool)
    (v : ν) : Proc σ Exc ν := do
  let s ← Proc.get
  match cast with
  | none => pure v
  | some name =>
    if name = "" || S.isNone s v || skip then pure v
    else
      catchOperator rt (ruleError rt rule (stage ++ " " ++ rt.reprStr name ++ " falhou: "))
        (applyTypeCast S rt v name)

def valueMapStage (rule : CompiledRule ν) (usedDefault usedIngest : Bool) (v : ν) :
    Proc σ Exc ν := do
  let s ← Proc.get
  match rule.valueMap with
  | none => pure v
  | some mapping =>
    if S.isNone s v || usedDefault then pure v
    else catchOperator rt (ruleError rt rule "value_map falhou: ") do
      let hit ← valueMapHit S rt v mapping
      pure (hit.getD (if usedIngest then v else rule.default.getD v))

structure RuleStart (ν : Type) where
  value : ν
  usedDefault : Bool
  usedIngest : Bool

def ruleStart (rule : CompiledRule ν) (ingestTimeEpoch : Option Int) (found : ν) (s : σ) :
    RuleStart ν :=
  let usedDefault := rule.default.isSome && S.isNone s found
  let v := if usedDefault then rule.default.getD found else found
  let usedIngest := S.isNone s v && rule.defaultFromIngest && ingestTimeEpoch.isSome
  ⟨if usedIngest then S.scalar (.int (ingestTimeEpoch.getD 0)) else v, usedDefault, usedIngest⟩

/-- `pre_cast`, the `required` check, `value_map`, `type_cast`. -/
def ruleChain (rule : CompiledRule ν) (start : RuleStart ν) : Proc σ Exc ν := do
  let v ← castStage S rt rule "pre_cast" rule.preCast start.usedDefault start.value
  let s ← Proc.get
  if S.isNone s v && rule.required then Proc.raise (.requiredField rule.target)
  else do
    let w ← valueMapStage S rt rule start.usedDefault start.usedIngest v
    castStage S rt rule "type_cast" rule.typeCast false w

structure RuleOutcome (ν : Type) where
  value : ν
  resolved : Bool
  usedDefault : Bool
  usedIngest : Bool

def ruleValue (rule : CompiledRule ν) (raw extracted : ν) (ingestTimeEpoch : Option Int) :
    Proc σ Exc (RuleOutcome ν) := do
  let found ← resolveRule S rt rule raw extracted
  let s ← Proc.get
  let start := ruleStart S rule ingestTimeEpoch found s
  let v ← ruleChain S rt rule start
  pure ⟨v, !S.isNone s found, start.usedDefault, start.usedIngest⟩

def ruleRoot (rule : CompiledRule ν) (raw extracted : ν) : ν :=
  if rule.readsExtracted then extracted else raw

/-- The `when` gate. -/
def ruleGate (rule : CompiledRule ν) (raw extracted : ν) : Proc σ Exc Bool :=
  match rule.whenPredicate with
  | none => pure true
  | some p => evaluatePredicate S rt (ruleRoot rule raw extracted) p

end Phases

section ArrayBuilder
variable {σ ν : Type} (S : Objects σ ν)

abbrev Observable (ν : Type) := List (String × ν)

def observable (item : CompiledArrayBuilderItem) (v : ν) : Observable ν :=
  [ ("name", S.scalar (.str item.name)), ("type", S.scalar (.str item.type)),
    ("type_id", S.scalar item.typeId), ("value", v) ]

def itemElements (s : σ) (item : CompiledArrayBuilderItem) (v : ν) : List ν :=
  if item.explode then
    match S.shape s v with
    | .scalar .null => []
    | .list xs => if item.skipNull then xs.filter (fun x => !S.isNone s x) else xs
    | _ => [v]
  else if S.isNone s v && item.skipNull then []
  else [v]

def itemObservables (raw extracted : ν) (item : CompiledArrayBuilderItem) :
    Proc σ Exc (List (Observable ν)) := do
  let v ← item.source.source.search S (if item.source.isExtracted then extracted else raw)
  let s ← Proc.get
  pure ((itemElements S s item v).map (observable S item))

def hashable (s : σ) (v : ν) : Except PyError Scalar :=
  match S.shape s v with
  | .scalar x => .ok x
  | _ => .error .typeError

/-- `tuple(obs.get(k) for k in dedup_by)`, hashed. -/
def dedupKey (s : σ) (names : List String) (obs : Observable ν) :
    Except PyError (List Scalar) :=
  names.mapM (fun k => hashable S s ((obs.lookup k).getD (S.scalar .null)))

def keyEq (a b : List Scalar) : Bool := (a.zip b).all (fun p => p.1.hashEq p.2)

def dedupObservables (s : σ) (names : List String) :
    List (List Scalar) → List (Observable ν) → Except PyError (List (Observable ν))
  | _, [] => .ok []
  | seen, obs :: rest => do
    let key ← dedupKey S s names obs
    if seen.any (keyEq key) then dedupObservables s names seen rest
    else do
      let kept ← dedupObservables s names (key :: seen) rest
      .ok (obs :: kept)

def dedupBy (s : σ) (names : List String) (found : List (Observable ν)) :
    Except PyError (List (Observable ν)) :=
  if names.isEmpty then .ok found else dedupObservables S s names [] found

def applyArrayBuilder (rule : CompiledArrayBuilderRule) (raw extracted : ν) : Proc σ Exc ν := do
  let found ← Proc.each (itemObservables S raw extracted) rule.items
  let s ← Proc.get
  let kept ← liftExc (uncaught (dedupBy S s rule.dedupBy found.flatten))
  let made ← Proc.each (fun obs => S.new (.dict obs)) kept
  S.new (.list made)

end ArrayBuilder

section Reduction
variable {σ ν : Type} (S : Objects σ ν) (rt : MappingRuntime)

inductive LeafResult (ν : Type) where
  | unchanged
  | remove (mark : String)
  | replace (v : ν) (mark : String)

/-- A rewritten node, if it changed, and the marks of the operations that fired. -/
abbrev Rewrite (ν : Type) := Option ν × List String

def keepOnlyLeaf (spec : CompiledReductionSpec) (fields : List (String × ν)) :
    Proc σ Exc (LeafResult ν) :=
  match spec.keepOnly with
  | none => pure .unchanged
  | some names =>
    let kept := fields.filter (fun p => names.contains p.1)
    if kept.length = fields.length then pure .unchanged
    else do
      let w ← S.new (.dict kept)
      pure (.replace w (spec.pathStr ++ "(kept " ++ toString kept.length ++ "/" ++
        toString fields.length ++ ")"))

def maxItemsLeaf (spec : CompiledReductionSpec) (xs : List ν) : Proc σ Exc (LeafResult ν) :=
  match spec.maxItems with
  | none => pure .unchanged
  | some limit =>
    if limit < xs.length then do
      let w ← S.new (.list (xs.take limit))
      pure (.replace w (spec.pathStr ++ "[+" ++ toString (xs.length - limit) ++ " items]"))
    else pure .unchanged

def maxBytesLeaf (spec : CompiledReductionSpec) (t : String) : Proc σ Exc (LeafResult ν) :=
  match spec.maxBytes, rt.utf8Size t with
  | none, _ => pure .unchanged
  | some _, none => Proc.raise (.python .valueError)
  | some limit, some size =>
    if limit < size then
      pure (.replace (S.scalar (.str (rt.utf8Clip limit t)))
        (spec.pathStr ++ "(~" ++ toString (size - limit) ++ "B)"))
    else pure .unchanged

/-- Each operation is for one type of value. -/
def reductionLeaf (spec : CompiledReductionSpec) (v : ν) : Proc σ Exc (LeafResult ν) :=
  if spec.drop then pure (.remove (spec.pathStr ++ "(dropped)"))
  else do
    match ← S.look v with
    | .dict fields => keepOnlyLeaf S spec fields
    | .list xs => maxItemsLeaf S spec xs
    | .scalar (.str t) => maxBytesLeaf S rt spec t
    | _ => pure .unchanged

def rewriteList (xs : List ν) (outs : List (Rewrite ν)) : Proc σ Exc (Rewrite ν) := do
  let marks := outs.flatMap Prod.snd
  if outs.any (fun r => r.1.isSome) then do
    let w ← S.new (.list (List.zipWith (fun x r => r.1.getD x) xs outs))
    pure (some w, marks)
  else pure (none, marks)

def transformLeaf (fields : List (String × ν)) (key : String) (r : LeafResult ν) :
    Proc σ Exc (Rewrite ν) :=
  match r with
  | .unchanged => pure (none, [])
  | .remove mark => do
    let w ← S.new (.dict (Assoc.erase key fields))
    pure (some w, [mark])
  | .replace v mark => do
    let w ← S.new (.dict (Assoc.set key v fields))
    pure (some w, [mark])

def memberAt (head : String) (fields : List (String × ν)) : Option ν :=
  if head = listWildcard then none else fields.lookup head

/-- `_transform`, down to the depth that the interpreter's stack allows. -/
def transform (leaf : ν → Proc σ Exc (LeafResult ν)) :
    Nat → List String → ν → Proc σ Exc (Rewrite ν)
  | 0, _, _ => Proc.raise (.python .recursionError)
  | _ + 1, [], _ => pure (none, [])
  | fuel + 1, head :: rest, node => do
    match ← S.look node with
    | .list xs =>
      if head = listWildcard then do
        let outs ← Proc.each (transform leaf fuel rest) xs
        rewriteList S xs outs
      else pure (none, [])
    | .dict fields =>
      match memberAt head fields, rest with
      | none, _ => pure (none, [])
      | some v, [] => do
        let r ← leaf v
        transformLeaf S fields head r
      | some v, _ :: _ => do
        let (child, marks) ← transform leaf fuel rest v
        match child with
        | none => pure (none, marks)
        | some w => do
          let copy ← S.new (.dict (Assoc.set head w fields))
          pure (some copy, marks)
    | _ => pure (none, [])

/-- `_prune_nulls`, down to the depth that the interpreter's stack allows. -/
def pruneNulls : Nat → ν → Proc σ Exc (Option ν)
  | 0, _ => Proc.raise (.python .recursionError)
  | fuel + 1, node => do
    match ← S.look node with
    | .dict fields => do
      let s ← Proc.get
      let kept := fields.filter (fun p => !S.isNone s p.2)
      let outs ← Proc.each (fun p => pruneNulls fuel p.2) kept
      if kept.length < fields.length || outs.any Option.isSome then do
        let w ← S.new (.dict (List.zipWith (fun p r => (p.1, r.getD p.2)) kept outs))
        pure (some w)
      else pure none
    | .list xs => do
      let outs ← Proc.each (pruneNulls fuel) xs
      if outs.any Option.isSome then do
        let w ← S.new (.list (List.zipWith (fun x r => r.getD x) xs outs))
        pure (some w)
      else pure none
    | _ => pure none

def reduceStep (raw : ν) (acc : Rewrite ν) (spec : CompiledReductionSpec) :
    Proc σ Exc (Rewrite ν) := do
  let obj := acc.1.getD raw
  if spec.isGlobal then do
    match ← pruneNulls S rt.stackLimit obj with
    | some w => pure (some w, acc.2 ++ ["nulls"])
    | none => pure acc
  else do
    let (out, marks) ← transform S (reductionLeaf S rt spec) rt.stackLimit spec.pathParts obj
    match out with
    | some w => pure (some w, acc.2 ++ marks)
    | none => pure acc

def applyRawReduction (raw : ν) (specs : List CompiledReductionSpec) :
    Proc σ Exc (Option ν) := do
  let (out, dropped) ← Proc.fold (reduceStep S rt raw) (none, []) specs
  match out with
  | none => pure none
  | some obj => do
    match ← S.look obj with
    | .dict fields => do
      let marks ← S.new (.list (dropped.map (fun m => S.scalar (.str m))))
      let w ← S.new (.dict (Assoc.set "_centralops_reduced" marks fields))
      pure (some w)
    | _ => pure none

end Reduction

section Apply
variable {σ ν : Type} (S : Objects σ ν) (rt : MappingRuntime)

/-- The locals of the rule loop. -/
structure Progress (ν : Type) where
  output : ν
  consumed : List String
  defaultHits : List String
  ingestFallback : List String

structure ApplyResult (ν : Type) where
  output : ν
  consumedPaths : List String
  defaultHits : List String
  ingestFallbackTargets : List String
  reducedRaw : Option ν

/-- The value that a rule is about to write; `none` when its gate is closed. -/
def evalRule (raw extracted : ν) (ingestTimeEpoch : Option Int) :
    AnyRule ν → Proc σ Exc (Option (RuleOutcome ν))
  | .arrayBuilder rule => do
    let v ← applyArrayBuilder S rule raw extracted
    pure (some ⟨v, true, false, false⟩)
  | .scalar rule => do
    if ← ruleGate S rt rule raw extracted then do
      let outcome ← ruleValue S rt rule raw extracted ingestTimeEpoch
      pure (some outcome)
    else pure none

/-- The paths that count as read even when the gate is closed. -/
def gateMarks (rule : CompiledRule ν) : List String :=
  ((rule.whenPredicate.map Predicate.sourceStrs).getD []).map (fun s => "source:" ++ s)

def outcomeMarks (rule : CompiledRule ν) (outcome : RuleOutcome ν) : List String :=
  match rule.source with
  | none => []
  | some src =>
    sourceMark src :: (if outcome.resolved then [rule.target] else []) ++
      rule.fallbacks.map sourceMark

def Progress.record (p : Progress ν) (rule : AnyRule ν) (outcome : Option (RuleOutcome ν)) :
    Progress ν :=
  match rule, outcome with
  | .arrayBuilder rule, _ =>
    { p with consumed := (rule.items.map (fun i => sourceMark i.source)).foldl consume p.consumed }
  | .scalar rule, none => { p with consumed := (gateMarks rule).foldl consume p.consumed }
  | .scalar rule, some outcome =>
    { p with
      consumed := (gateMarks rule ++ outcomeMarks rule outcome).foldl consume p.consumed
      defaultHits := p.defaultHits ++ (if outcome.usedDefault then [rule.target] else [])
      ingestFallback := p.ingestFallback ++ (if outcome.usedIngest then [rule.target] else []) }

def applyMappingRule (raw extracted : ν) (ingestTimeEpoch : Option Int) (p : Progress ν)
    (rule : AnyRule ν) : Proc σ Exc (Progress ν) := do
  let outcome ← evalRule S rt raw extracted ingestTimeEpoch rule
  match outcome with
  | none => pure (p.record rule none)
  | some o => do
    S.write p.output rule.targetPath o.value
    pure (p.record rule (some o))

/-- The three phases, once the dicts of the call exist. -/
def applyPhases (compiled : CompiledRules ν) (raw : ν) (ingestTimeEpoch : Option Int)
    (output extracted : ν) : Proc σ Exc (ApplyResult ν) := do
  let consumed ← Proc.fold (preprocessOp S rt raw extracted) [] compiled.preprocessOps
  let p ← Proc.fold (applyMappingRule S rt raw extracted ingestTimeEpoch)
    ⟨output, consumed, [], []⟩ compiled.rules
  let reduced ← applyRawReduction S rt raw compiled.rawReduction
  pure ⟨p.output, p.consumed, p.defaultHits, p.ingestFallback, reduced⟩

def applyCompiled (compiled : CompiledRules ν) (raw : ν) (ingestTimeEpoch : Option Int) :
    Proc σ Exc (ApplyResult ν) := do
  let output ← S.new (.dict [])
  let extracted ← S.new (.dict [])
  applyPhases S rt compiled raw ingestTimeEpoch output extracted

end Apply

/-- Rules and event as they come from `json.loads`: the rules are compiled, then applied to the
event. `none` when `compile_rules` rejects the document. -/
def mapEvent (rt : MappingRuntime) (J : Jmespath) (doc : Json) (dslVersion : Option Int)
    (raw : Obj) (ingestTimeEpoch : Option Int) :
    Option (Ending (Heap Scalar) Exc (ApplyResult (Ref Scalar))) :=
  let S := pythonObjects J
  let d := S.load doc J.literals
  let r := S.load (.obj raw) d.2
  (compileRules rt (S.shape d.2) d.1 dslVersion).map
    (fun compiled => applyCompiled S rt compiled r.1 ingestTimeEpoch r.2)

end CentralOps
