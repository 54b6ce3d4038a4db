import CentralOps.Normalize.Document

namespace CentralOps
set_option autoImplicit true

/-- The library as the enrichment uses it. -/
structure EnrichLibrary where
  rt : MappingRuntime
  /-- `jmespath.compile(e).search(v)`. -/
  search : String → Json → Except String Json

inductive KeyNormalizer where
  | lower | upper | strip | defang | stripPort
  deriving DecidableEq

structure CompiledWhen where
  predicate : Option (Predicate Json)
  hasTags : List String
  lacksTags : List String

structure CompiledOutput where
  fromField : String
  targetPath : List String
  default : Json
  hasDefault : Bool

inductive OnMiss where
  | skip | default | tag
  deriving DecidableEq

inductive OnMulti where
  | first | error | array
  deriving DecidableEq

inductive OnError where
  | skip | tag
  deriving DecidableEq

inductive RuleMode where
  | local | remote
  deriving DecidableEq

structure CompiledEnrichRule where
  ruleId : String
  enricher : String
  table : Option String
  source : Option String
  keySource : Source
  keyNormalizers : List KeyNormalizer
  when : Option CompiledWhen
  outputs : List CompiledOutput
  tags : List String
  onMiss : OnMiss
  onMulti : OnMulti
  onError : OnError
  overwrite : Bool
  mode : RuleMode
  ttl : Option Nat
  negativeTtl : Option Nat

/-- `compile_policy` rejects a second rule with the same id. -/
structure CompiledPolicy where
  rules : List CompiledEnrichRule
  version : Int
  ids : (rules.map CompiledEnrichRule.ruleId).Nodup

def CompiledPolicy.remoteRules (policy : CompiledPolicy) : List CompiledEnrichRule :=
  policy.rules.filter (fun r => r.mode = .remote)

theorem CompiledPolicy.remote_ids (policy : CompiledPolicy) :
    (policy.remoteRules.map CompiledEnrichRule.ruleId).Nodup :=
  (List.filter_sublist.map _).nodup policy.ids

theorem CompiledPolicy.remote_unique (policy : CompiledPolicy) (hr : r ∈ policy.remoteRules)
    (hr' : r' ∈ policy.remoteRules) (h : r.ruleId = r'.ruleId) : r = r' :=
  List.inj_on_of_nodup_map policy.remote_ids hr hr' h

/-- `s.replace(pat, rep)`, with the number of characters of a match that are still to be passed. -/
def replaceFrom (pat rep : List Char) : Nat → List Char → List Char
  | _, [] => []
  | skip + 1, _ :: cs => replaceFrom pat rep skip cs
  | 0, c :: cs =>
    if pat.isPrefixOf (c :: cs) then rep ++ replaceFrom pat rep (pat.length - 1) cs
    else c :: replaceFrom pat rep 0 cs

def pyReplace (pat rep s : String) : String :=
  String.ofList (replaceFrom pat.toList rep.toList 0 s.toList)

def withoutPort (s : String) : String :=
  match s.toList with
  | '[' :: cs => if ']' ∈ cs then String.ofList (cs.takeWhile (· ≠ ']')) else s
  | cs => if cs.count ':' = 1 then String.ofList (cs.takeWhile (· ≠ ':')) else s

section Keys
variable (lib : EnrichLibrary)

def KeyNormalizer.apply (s : String) : KeyNormalizer → String
  | .lower => lib.rt.lower s
  | .upper => lib.rt.upper s
  | .strip => String.ofList (pyStrip s.toList)
  | .defang =>
    pyReplace "hxxps://" "https://" (pyReplace "hxxp://" "http://" (pyReplace "[:]" ":"
      (pyReplace "(.)" "." (pyReplace "[.]" "." s))))
  | .stripPort => withoutPort s

def normalizeKey (value : String) (normalizers : List KeyNormalizer) : String :=
  normalizers.foldl (KeyNormalizer.apply lib) value

def keyOf (rule : CompiledEnrichRule) (s : String) : Option String :=
  let key := pyStrip (normalizeKey lib s rule.keyNormalizers).toList
  if key = [] then none else some (String.ofList key)

/-- A number with too many digits has no `str`. -/
def extractKey (envelope : Json) (rule : CompiledEnrichRule) : Except PyError (Option String) :=
  match readResult (rule.keySource.search (jsonObjects lib.search) envelope) with
  | none => .ok none
  | some raw =>
    match raw.shape with
    | .scalar .null | .scalar (.bool _) | .list _ | .dict _ => .ok none
    | .scalar (.str s) => .ok (keyOf lib rule s)
    | .scalar x => (x.repr lib.rt).map (keyOf lib rule)

/-- `_set_path`; `none` when a node on the way is not a dict. -/
def setPath (root : Obj) : List String → Json → Option Obj
  | [], _ => none
  | [part], value => some (Assoc.set part value root)
  | part :: path, value =>
    match root.getN part with
    | .null => (setPath [] path value).map (fun c => Assoc.set part (.obj c) root)
    | .obj c => (setPath c path value).map (fun c => Assoc.set part (.obj c) root)
    | _ => none

def tagsPath : List String := ["_centralops", "enrichment_tags"]

def sourcesPath : List String := ["_centralops", "enrichment", "_sources"]

/-- `_current_tags`. -/
def currentTags (envelope : Json) : List String :=
  match getPath envelope tagsPath with
  | .list xs => xs.filterMap fun
    | .str t => some t
    | _ => none
  | _ => []

/-- `evaluate_when`; `none` when it raises. -/
def evaluateWhen (gate : CompiledWhen) (envelope : Json) : Option Bool :=
  if gate.hasTags ≠ [] ∨ gate.lacksTags ≠ [] then
    let tags := currentTags envelope
    some (gate.hasTags.all (· ∈ tags) && !gate.lacksTags.any (· ∈ tags))
  else
    match gate.predicate with
    | some p => readResult (evaluatePredicate (jsonObjects lib.search) lib.rt envelope p)
    | none => some true

def gateOpen (rule : CompiledEnrichRule) (envelope : Json) : Bool :=
  match rule.when with
  | none => true
  | some gate => (evaluateWhen lib gate envelope).getD false

end Keys

end CentralOps
