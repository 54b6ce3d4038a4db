import CentralOps.Lib.FirstMatch
import CentralOps.Json

namespace CentralOps
set_option autoImplicit true

/-- The JMESPath library, with the texts of its errors. -/
structure JmespathLibrary (ε : Type) where
  compile : String → Except String ε
  search : ε → Json → Except String Json

/-- `FACTORY_DETECTORS`: the expression of each. -/
def factoryDetectors : List (String × String) :=
  [("fortigate", "contains(msg, 'devname=') && contains(msg, 'logid=')"),
    ("paloalto", "contains(msg, ',TRAFFIC,') || contains(msg, ',THREAT,') || " ++
      "contains(msg, ',SYSTEM,') || contains(msg, ',CONFIG,')"),
    ("cisco_asa", "contains(msg, '%ASA-') || contains(msg, '%FTD-')"),
    ("pfsense", "app == 'filterlog' || contains(msg, 'filterlog')"),
    ("linux_auth", "app == 'sshd' || app == 'sudo' || app == 'su' || app == 'login' || " ++
      "facility == `10` || facility == `4`"),
    ("windows_vector", "app == 'Microsoft-Windows-Security-Auditing' || " ++
      "contains(msg, 'EventID=') || contains(msg, '\"EventID\"') || sd.win != null")]

/-- A rule never has an empty stream, which `explain` would take for no rule at all. -/
structure ClassifierRule (ε : Type) where
  compiled : ε
  whenText : String
  stream : String
  named : stream ≠ ""

structure Classifier (ε : Type) where
  rules : List (ClassifierRule ε)
  defaultStream : Option String

structure TraceEntry where
  whenText : String
  stream : String
  result : Json
  matched : Bool
  deriving DecidableEq

structure Explanation where
  stream : Option String
  matchedRule : Bool
  trace : List TraceEntry
  deriving DecidableEq

section Compile
variable (rt : Runtime) (J : JmespathLibrary ε)

/-- `str(v or "")`. -/
def strOrEmpty (v : Json) : String := if v.truthy then rt.str v else ""

def stripped (s : String) : String := String.ofList (pyStrip s.toList)

def resolveWhen (whenText : String) : Except String String :=
  let w := stripped whenText
  match w.toList with
  | '@' :: name =>
    match factoryDetectors.lookup (String.ofList name) with
    | some expr => .ok expr
    | none =>
      let names := (factoryDetectors.map Prod.fst).insertionSort (· ≤ ·)
      .error s!"detector de fábrica desconhecido: {rt.reprStr w}. Válidos: {rt.repr (.list (names.map .str))}"
  | [] => .error "'when' vazio"
  | _ => .ok w

def compileClassifierRule (i : Nat) (r : Json) : Except String (ClassifierRule ε) :=
  match r with
  | .obj o =>
    let stream := stripped (strOrEmpty rt (Obj.getN o "stream"))
    if h : stream = "" then .error s!"regra #{i}: 'stream' obrigatório"
    else do
      let expr ← resolveWhen rt (strOrEmpty rt (Obj.getN o "when"))
      match J.compile expr with
      | .ok c => .ok ⟨c, rt.str (Obj.getN o "when"), stream, h⟩
      | .error exc => .error s!"regra #{i}: JMESPath inválido em 'when': {exc}"
  | _ => .error s!"regra #{i}: deve ser objeto \x7bwhen, stream\x7d"

def compileClassifierRules (i : Nat) : List Json → Except String (List (ClassifierRule ε))
  | [] => .ok []
  | r :: rs => do
    let rule ← compileClassifierRule rt J i r
    let rules ← compileClassifierRules (i + 1) rs
    return rule :: rules

def effectiveDefault (configured : Json) (defaultStream : Option String) : Option String :=
  if configured.truthy then some (stripped (rt.str configured))
  else (defaultStream.filter (· ≠ "")).map stripped

def compileClassifier (config : Option Obj) (defaultStream : Option String) :
    Except String (Classifier ε) :=
  let cfg := config.getD []
  let rulesRaw := if (cfg.getN "rules").truthy then cfg.getN "rules" else .list []
  match rulesRaw with
  | .list rs =>
    if 50 < rs.length then .error "no máximo 50 regras de classificação por fonte"
    else do
      let rules ← compileClassifierRules rt J 0 rs
      return ⟨rules, effectiveDefault rt (cfg.getN "default_stream") defaultStream⟩
  | _ => .error "'rules' deve ser uma lista"

end Compile

section Evaluate
variable (J : JmespathLibrary ε) (event : Json)

/-- The loop of `classify`. -/
def classifyFrom (defaultStream : Option String) : List (ClassifierRule ε) → Option String
  | [] => defaultStream
  | r :: rs =>
    match J.search r.compiled event with
    | .ok v => if v.truthy then some r.stream else classifyFrom defaultStream rs
    | .error _ => classifyFrom defaultStream rs

def Classifier.classify (c : Classifier ε) : Option String :=
  classifyFrom J event c.defaultStream c.rules

def Json.isStr : Json → Bool
  | .str _ => true
  | _ => false

/-- What `explain` shows for a rule; an error is shown as a string. -/
def dryResult (r : ClassifierRule ε) : Json :=
  match J.search r.compiled event with
  | .ok v => v
  | .error exc => .str ("erro: " ++ exc)

/-- What `explain` takes for a match: no string is one. -/
def hit (r : ClassifierRule ε) : Bool := (dryResult J event r).truthy && !(dryResult J event r).isStr

def traceEntry (r : ClassifierRule ε) : TraceEntry :=
  ⟨r.whenText, r.stream, dryResult J event r, hit J event r⟩

/-- One turn of the loop of `explain`, with the trace and the stream chosen so far. -/
def explainStep (acc : List TraceEntry × Option String) (r : ClassifierRule ε) :
    List TraceEntry × Option String :=
  (acc.1 ++ [traceEntry J event r],
    if hit J event r ∧ acc.2 = none then some r.stream else acc.2)

def Classifier.explain (c : Classifier ε) : Explanation :=
  let (trace, chosen) := c.rules.foldl (explainStep J event) ([], none)
  ⟨(chosen.filter (· ≠ "")).or c.defaultStream, chosen.isSome, trace⟩

/-- What `classify` takes for a match. -/
def accepts (r : ClassifierRule ε) : Bool :=
  match J.search r.compiled event with
  | .ok v => v.truthy
  | .error _ => false

/-- The rule whose stream `classify` returns. -/
def Classifier.deciding (c : Classifier ε) : Option Nat := c.rules.findIdx? (accepts J event)

/-- The first rule that `explain` reports as matched. -/
def Explanation.firstMatched (x : Explanation) : Option Nat := x.trace.findIdx? (·.matched)

theorem classifyFrom_eq (defaultStream : Option String) (rs : List (ClassifierRule ε)) :
    classifyFrom J event defaultStream rs =
      ((rs.find? (accepts J event)).map (·.stream)).or defaultStream := by
  induction rs with
  | nil => rfl
  | cons r rs ih =>
    rw [classifyFrom, ih, List.find?_cons, accepts]
    cases J.search r.compiled event with
    | error exc => rfl
    | ok v => cases h : v.truthy <;> simp [h]

theorem foldl_explainStep (rs : List (ClassifierRule ε)) (acc : List TraceEntry × Option String) :
    rs.foldl (explainStep J event) acc =
      (acc.1 ++ rs.map (traceEntry J event),
        acc.2.or ((rs.find? (hit J event)).map (·.stream))) := by
  induction rs generalizing acc with
  | nil => simp
  | cons r rs ih =>
    obtain ⟨trace, chosen⟩ := acc
    rw [List.foldl_cons, ih, List.find?_cons]
    cases hr : hit J event r <;> cases chosen <;> simp [explainStep, hr]

variable {J event}

theorem chosen_nonempty {rs : List (ClassifierRule ε)} {p : ClassifierRule ε → Bool} :
    ((rs.find? p).map (·.stream)).filter (· ≠ "") = (rs.find? p).map (·.stream) := by
  cases rs.find? p with
  | none => rfl
  | some r => simp [r.named]

theorem explain_eq (c : Classifier ε) :
    c.explain J event =
      ⟨((c.rules.find? (hit J event)).map (·.stream)).or c.defaultStream,
        (c.rules.find? (hit J event)).isSome, c.rules.map (traceEntry J event)⟩ := by
  rw [Classifier.explain, foldl_explainStep]
  simp only [Option.none_or, chosen_nonempty, Option.isSome_map, List.nil_append]

theorem firstMatched_explain (c : Classifier ε) :
    (c.explain J event).firstMatched = c.rules.findIdx? (hit J event) := by
  rw [explain_eq, Explanation.firstMatched, List.findIdx?_map]
  rfl

/-- An error is a string, so what `explain` takes for a match is a value of the search. -/
theorem hit_iff (r : ClassifierRule ε) :
    hit J event r = true ↔
      ∃ v, J.search r.compiled event = .ok v ∧ v.truthy = true ∧ ∀ s, v ≠ .str s := by
  rw [hit, dryResult]
  cases J.search r.compiled event with
  | error exc => simp [Json.isStr]
  | ok v => cases v <;> simp [Json.isStr]

theorem accepts_of_hit (r : ClassifierRule ε) (h : hit J event r = true) :
    accepts J event r = true := by
  obtain ⟨v, hv, htruthy, _⟩ := (hit_iff r).1 h
  rw [accepts, hv]
  exact htruthy

/-- Only a string with something in it is a match for `classify` alone. -/
theorem accepts_and_not_hit_iff (r : ClassifierRule ε) :
    accepts J event r = true ∧ hit J event r = false ↔
      ∃ s, J.search r.compiled event = .ok (.str s) ∧ s ≠ "" := by
  rw [accepts, hit, dryResult]
  cases J.search r.compiled event with
  | error exc => simp
  | ok v => cases v <;> simp [Json.isStr, Json.truthy]

end Evaluate

/-- The dry run says what `classify` does: the same stream, by the same rule. -/
def TellsTruth (J : JmespathLibrary ε) (c : Classifier ε) (event : Json) : Prop :=
  (c.explain J event).stream = c.classify J event ∧
    (c.explain J event).firstMatched = c.deciding J event

/-- A rule whose expression gives a string with something in it stands after one whose expression
gives another true value. -/
def StringsComeLater (J : JmespathLibrary ε) (c : Classifier ε) (event : Json) : Prop :=
  ∀ (i : Nat) (r : ClassifierRule ε) (s : String),
    c.rules[i]? = some r → J.search r.compiled event = .ok (.str s) → s ≠ "" →
      ∃ j < i, ∃ r' : ClassifierRule ε, c.rules[j]? = some r' ∧
        ∃ v, J.search r'.compiled event = .ok v ∧ v.truthy = true ∧ ∀ t, v ≠ .str t

variable {J : JmespathLibrary ε} {event : Json}

theorem firstMatched_eq_iff (c : Classifier ε) :
    (c.explain J event).firstMatched = c.deciding J event ↔ StringsComeLater J c event := by
  rw [firstMatched_explain, Classifier.deciding, FirstMatch.findIdx?_eq_iff accepts_of_hit]
  constructor
  · intro h i r s hi hs hne
    obtain ⟨haccepts, hhit⟩ := (accepts_and_not_hit_iff r).2 ⟨s, hs, hne⟩
    obtain ⟨j, hj, r', hr', hit'⟩ := h i r hi haccepts hhit
    exact ⟨j, hj, r', hr', (hit_iff r').1 hit'⟩
  · intro h i r hi haccepts hhit
    obtain ⟨s, hs, hne⟩ := (accepts_and_not_hit_iff r).1 ⟨haccepts, hhit⟩
    obtain ⟨j, hj, r', hr', hv⟩ := h i r s hi hs hne
    exact ⟨j, hj, r', hr', (hit_iff r').2 hv⟩

theorem stream_eq_of_firstMatched {c : Classifier ε}
    (h : (c.explain J event).firstMatched = c.deciding J event) :
    (c.explain J event).stream = c.classify J event := by
  rw [firstMatched_explain, Classifier.deciding] at h
  rw [Classifier.classify, classifyFrom_eq, explain_eq]
  simp only [FirstMatch.find?_eq_getElem, h]

/-- The library on expressions that name one field. -/
def fieldLibrary : JmespathLibrary String where
  compile s := if s.toList.all Char.isAlpha then .ok s else .error "not a field"
  search e v := .ok (v.asObj.getN e)

/-- One rule, with the field it reads. -/
def oneRule (field : String) : Obj :=
  [("rules", .list [.obj [("when", .str field), ("stream", .str "alerts")]])]

def oneRuleCompiled (field : String) : Classifier String :=
  ⟨[⟨field, field, "alerts", by decide⟩], none⟩

/-- A message is a string, so the dry run sees no match where the receiver classifies. -/
theorem dry_run_misses_string :
    compileClassifier .ascii fieldLibrary (some (oneRule "msg")) none =
        .ok (oneRuleCompiled "msg") ∧
      (oneRuleCompiled "msg").classify fieldLibrary (.obj [("msg", .str "login")]) =
        some "alerts" ∧
      (oneRuleCompiled "msg").explain fieldLibrary (.obj [("msg", .str "login")]) =
        ⟨none, false, [⟨"msg", "alerts", .str "login", false⟩]⟩ ∧
      ¬ TellsTruth fieldLibrary (oneRuleCompiled "msg") (.obj [("msg", .str "login")]) := by
  refine ⟨by rfl, by rfl, by rfl, ?_⟩
  intro h
  exact absurd h.1 (by decide)

theorem classifier_dry_run (rt : Runtime) (J : JmespathLibrary ε) (config : Option Obj)
    (defaultStream : Option String) (event : Json) :
    ∀ c, compileClassifier rt J config defaultStream = .ok c →
      (TellsTruth J c event ↔ StringsComeLater J c event) := by
  intro c _
  constructor
  · intro h
    exact (firstMatched_eq_iff c).1 h.2
  · intro h
    have hmatched := (firstMatched_eq_iff c).2 h
    exact ⟨stream_eq_of_firstMatched hmatched, hmatched⟩

theorem classifier_dry_run_flag :
    TellsTruth fieldLibrary (oneRuleCompiled "flag") (.obj [("flag", .bool true)]) := by
  apply (classifier_dry_run .ascii fieldLibrary (some (oneRule "flag")) none
    (.obj [("flag", .bool true)]) (oneRuleCompiled "flag") rfl).2
  intro i r s hi hs _
  cases i with
  | zero =>
    obtain rfl : (oneRuleCompiled "flag").rules[0] = r := Option.some.inj hi
    cases hs
  | succ i => cases hi

end CentralOps
