import CentralOps.Enrich.Remote

namespace CentralOps
set_option autoImplicit true

structure ApplyStats where
  eventsTouched : Nat
  hits : List (String × Nat)
  misses : List (String × Nat)
  skipped : List (String × Nat)
  errors : List (String × Nat)

def ApplyStats.empty : ApplyStats := ⟨0, [], [], [], []⟩

/-- `_bump`. -/
def bumpBucket (ruleId : String) (bucket : List (String × Nat)) : List (String × Nat) :=
  Assoc.set ruleId ((bucket.lookup ruleId).getD 0 + 1) bucket

def ApplyStats.hit (stats : ApplyStats) (ruleId : String) : ApplyStats :=
  { stats with hits := bumpBucket ruleId stats.hits }

def ApplyStats.miss (stats : ApplyStats) (ruleId : String) : ApplyStats :=
  { stats with misses := bumpBucket ruleId stats.misses }

def ApplyStats.skip (stats : ApplyStats) (ruleId : String) : ApplyStats :=
  { stats with skipped := bumpBucket ruleId stats.skipped }

def ApplyStats.fault (stats : ApplyStats) (ruleId : String) : ApplyStats :=
  { stats with errors := bumpBucket ruleId stats.errors }

/-- `_add_tags`. -/
def addTags (envelope : Obj) (tags : List String) : Obj :=
  let add := fun cur : List Json =>
    tags.foldl (fun cur t => if cur.any (Json.pyEq (.str t)) then cur else cur ++ [.str t]) cur
  if tags = [] then envelope
  else
    match getPath (.obj envelope) tagsPath with
    | .list cur => (setPath envelope tagsPath (.list (add cur))).getD envelope
    | _ => (setPath envelope tagsPath (.list (add []))).getD envelope

/-- `_add_source`. -/
def addSource (envelope : Obj) (rule : CompiledEnrichRule) : Obj :=
  let table := rule.table.filter (· ≠ "")
  let entry : Obj := [("rule", .str rule.ruleId), ("enricher", .str rule.enricher)] ++
    (table.map (fun t => ("table", Json.str t))).toList
  let cur := match getPath (.obj envelope) sourcesPath with
    | .list cur => cur
    | _ => []
  (setPath envelope sourcesPath (.list (cur ++ [.obj entry]))).getD envelope

/-- What an output writes; `null` is nothing. -/
def outputPayload (out : CompiledOutput) (value : Option Obj) (useDefaults : Bool) : Json :=
  match value.bind (·.lookup out.fromField) with
  | some payload => payload
  | none => if useDefaults && out.hasDefault then out.default else .null

def writeOutput (rule : CompiledEnrichRule) (value : Option Obj) (useDefaults : Bool)
    (acc : Obj × Bool) (out : CompiledOutput) : Obj × Bool :=
  let payload := outputPayload out value useDefaults
  if payload = .null then acc
  else if !rule.overwrite && getPath (.obj acc.1) out.targetPath ≠ .null then acc
  else
    match setPath acc.1 out.targetPath payload with
    | some envelope => (envelope, true)
    | none => acc

/-- `_write_outputs`, with whether anything was written. -/
def writeOutputs (envelope : Obj) (rule : CompiledEnrichRule) (value : Option Obj)
    (useDefaults : Bool) : Obj × Bool :=
  rule.outputs.foldl (writeOutput rule value useDefaults) (envelope, false)

/-- An event on its way through the rules: what it is by now, and whether a rule touched it. -/
structure EnrichedEvent where
  envelope : Obj
  touched : Bool
  stats : ApplyStats

def mappingRows (rows : List Json) : List Obj :=
  rows.filterMap fun
    | .obj row => some row
    | _ => none

/-- The one row that several answers for a key become. -/
def chooseRow (rule : CompiledEnrichRule) : Json → Option Obj
  | .obj row => some row
  | .list rows =>
    match rule.onMulti with
    | .array =>
      let merged := Assoc.collect (fun out : CompiledOutput =>
        let vals := ((mappingRows rows).map (fun row => Obj.getN row out.fromField)).filter
          (· ≠ .null)
        if vals = [] then none else some (out.fromField, Json.list vals)) [] rule.outputs
      if merged = [] then none else some merged
    | _ => (mappingRows rows).head?
  | _ => none

section Apply
variable (lib : EnrichLibrary)

def tagUnknown (rule : CompiledEnrichRule) : List String :=
  if rule.tags = [] then ["enrich_unknown"] else rule.tags.map (· ++ "_unknown")

def applyMiss (rule : CompiledEnrichRule) (acc : EnrichedEvent) : EnrichedEvent :=
  let stats := acc.stats.miss rule.ruleId
  match rule.onMiss with
  | .skip => { acc with stats := stats }
  | .tag => ⟨addTags acc.envelope (tagUnknown rule), true, stats⟩
  | .default =>
    let written := writeOutputs acc.envelope rule none true
    if written.2 then ⟨addSource written.1 rule, true, stats⟩
    else { acc with envelope := written.1, stats := stats }

def isList : Json → Bool
  | .list _ => true
  | _ => false

def applyHit (rule : CompiledEnrichRule) (value : Json) (acc : EnrichedEvent) : EnrichedEvent :=
  if isList value && rule.onMulti = .error then
    let stats := acc.stats.fault rule.ruleId
    match rule.onError with
    | .tag => ⟨addTags acc.envelope ["enrich_ambiguous"], true, stats⟩
    | .skip => { acc with stats := stats }
  else
    match chooseRow rule value with
    | none => { acc with stats := acc.stats.miss rule.ruleId }
    | some row =>
      let stats := acc.stats.hit rule.ruleId
      let written := writeOutputs acc.envelope rule (some row) false
      if written.2 then ⟨addSource (addTags written.1 rule.tags) rule, true, stats⟩
      else { acc with envelope := written.1, stats := stats }

def gateFaults (rule : CompiledEnrichRule) (envelope : Json) : Bool :=
  match rule.when with
  | none => false
  | some gate => (evaluateWhen lib gate envelope).isNone

/-- One pass of the loop of `apply`, over the rows of a bulk resolution. -/
def applyEnrichRule (rows : Rows) (acc : EnrichedEvent) (rule : CompiledEnrichRule) :
    Except PyError EnrichedEvent :=
  if gateFaults lib rule (.obj acc.envelope) then
    .ok { acc with stats := acc.stats.fault rule.ruleId }
  else if !gateOpen lib rule (.obj acc.envelope) then .ok acc
  else
    match extractKey lib (.obj acc.envelope) rule with
    | .error e => .error e
    | .ok none => .ok acc
    | .ok (some key) =>
      match rows.lookup (rule.ruleId, key) with
      | none => .ok { acc with stats := acc.stats.skip rule.ruleId }
      | some none => .ok (applyMiss rule acc)
      | some (some value) => .ok (applyHit rule value acc)

def applyEnrichRules (rules : List CompiledEnrichRule) (rows : Rows) (acc : EnrichedEvent) :
    Except PyError EnrichedEvent :=
  rules.foldlM (applyEnrichRule lib rows) acc

/-- `apply`. -/
def applyEvent (envelope : Obj) (rules : List CompiledEnrichRule) (rows : Rows)
    (stats : ApplyStats) : Except PyError EnrichedEvent :=
  (applyEnrichRules lib rules rows ⟨envelope, false, stats⟩).map fun acc =>
    if acc.touched then
      { acc with stats := { acc.stats with eventsTouched := acc.stats.eventsTouched + 1 } }
    else acc

end Apply

end CentralOps
