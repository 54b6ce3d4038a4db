import CentralOps.Json

namespace CentralOps
set_option autoImplicit true

def allowedRoots : List String := ["normalized", "raw"]

def maskSentinel : String := "[REDACTED]"

/-- What a rule does to the value it reaches, with the validated parameters. -/
inductive RedactionAction where
  | mask (fixedLen : Option Nat) (maskChar : Char)
  | hash (salt : Option String)
  | octets (keep : Nat) (maskChar : Char)
  | affixes (keepPrefix keepSuffix : Nat) (maskChar : Char)
  | dropField

def RedactionAction.name : RedactionAction → String
  | .mask .. => "mask"
  | .hash .. => "hash"
  | .octets .. | .affixes .. => "partial"
  | .dropField => "drop_field"

/-- A compiled rule points below `raw` or `normalized`, never at a whole root or at
`_centralops`. -/
structure CompiledRedactionRule where
  pathStr : String
  root : String
  field : String
  below : List String
  action : RedactionAction
  root_allowed : root ∈ allowedRoots

theorem raw_allowed : "raw" ∈ allowedRoots := by decide

def CompiledRedactionRule.pathParts (rule : CompiledRedactionRule) : List String :=
  rule.root :: rule.field :: rule.below

theorem CompiledRedactionRule.root_cases (rule : CompiledRedactionRule) :
    rule.root = "normalized" ∨ rule.root = "raw" := by
  simpa [allowedRoots] using rule.root_allowed

section Compile
variable (rt : Runtime)

def extractRules (spec : Json) : Except String (List Json) :=
  match spec with
  | .null => .ok []
  | .list rules => .ok rules
  | .obj o =>
    match o.lookup "rules" with
    | none => .ok []
    | some (.list rules) => .ok rules
    | some _ => .error "pii_redaction.rules deve ser uma lista"
  | _ => .error "pii_redaction deve ser objeto \x7bversion,rules\x7d ou lista"

def compileMaskChar (at_ : String) (item : Obj) : Except String Char :=
  match (item.lookup "mask_char").getD (.str "*") with
  | .str s =>
    match s.toList with
    | [c] => .ok c
    | _ => .error (at_ ++ ": 'mask_char' deve ser 1 caractere")
  | _ => .error (at_ ++ ": 'mask_char' deve ser 1 caractere")

/-- An integer that is not a `bool`, at least `low`. -/
def compileInt (at_ : String) (message : String) (low : Nat) : Json → Except String Nat
  | .int n => if (low : Int) ≤ n then .ok n.toNat else .error (at_ ++ message)
  | _ => .error (at_ ++ message)

def compileMask (at_ : String) (item : Obj) : Except String RedactionAction := do
  let fixedLen ← match item.getN "fixed_len" with
    | .null => pure none
    | v => some <$> compileInt at_ ": 'fixed_len' deve ser inteiro positivo" 1 v
  return .mask fixedLen (← compileMaskChar at_ item)

def compileHash (at_ : String) (item : Obj) : Except String RedactionAction :=
  if !((item.lookup "algo").getD (.str "sha256")).pyEq (.str "sha256") then
    .error (at_ ++ ": 'algo' suportado apenas 'sha256' (v1)")
  else
    match item.getN "salt" with
    | .null => .ok (.hash none)
    | .str salt => .ok (.hash (some salt))
    | _ => .error (at_ ++ ": 'salt' deve ser string")

def orZero : Json → Json
  | .null => .int 0
  | v => v

def compilePartial (at_ : String) (item : Obj) : Except String RedactionAction := do
  match item.getN "octets" with
  | .null =>
    let kp ← compileInt at_ ": 'keep_prefix' deve ser inteiro >= 0" 0
      (orZero (item.getN "keep_prefix"))
    let ks ← compileInt at_ ": 'keep_suffix' deve ser inteiro >= 0" 0
      (orZero (item.getN "keep_suffix"))
    if kp = 0 ∧ ks = 0 then
      throw (at_ ++ ": 'partial' exige octets, keep_prefix e/ou keep_suffix > 0")
    return .affixes kp ks (← compileMaskChar at_ item)
  | v =>
    let keep ← compileInt at_ ": 'octets' deve ser inteiro positivo" 1 v
    return .octets keep (← compileMaskChar at_ item)

def compileAction (at_ : String) (item : Obj) : Except String RedactionAction :=
  match item.getN "action" with
  | .str "mask" => compileMask at_ item
  | .str "hash" => compileHash at_ item
  | .str "partial" => compilePartial at_ item
  | .str "drop_field" => .ok .dropField
  | _ => .error (at_ ++ ": 'action' deve ser ['drop_field', 'hash', 'mask', 'partial']")

def splitPath (path : String) : List String :=
  ((path.toList.splitOn '.').map String.ofList).filter (fun p => p ≠ "")

def isBlank (s : String) : Bool := s.toList.all pySpace

def compileRule (idx : Nat) (item : Json) : Except String CompiledRedactionRule :=
  match item with
  | .obj item =>
    match Obj.getN item "path" with
    | .str path =>
      if isBlank path then
        .error s!"pii_redaction[{idx}]: 'path' obrigatório (string dot-separada)"
      else
        let at_ := s!"pii_redaction[{idx}] " ++ rt.reprStr path
        match splitPath path with
        | [] => .error (s!"pii_redaction[{idx}]: 'path' inválido " ++ rt.reprStr path)
        | root :: rest =>
          if hroot : root ∈ allowedRoots then
            match rest with
            | [] => .error (at_ ++ ": aponte um campo dentro de " ++ rt.reprStr root ++
                ", não a raiz inteira")
            | field :: below => do
              let action ← compileAction at_ item
              return ⟨path, root, field, below, action, hroot⟩
          else
            .error (at_ ++
              ": path deve começar com ['normalized', 'raw'] (não se redige _centralops)")
    | _ => .error s!"pii_redaction[{idx}]: 'path' obrigatório (string dot-separada)"
  | _ => .error s!"pii_redaction[{idx}]: regra deve ser um objeto"

def compileRulesFrom (idx : Nat) : List Json → Except String (List CompiledRedactionRule)
  | [] => .ok []
  | item :: items => do
    let rule ← compileRule rt idx item
    return rule :: (← compileRulesFrom (idx + 1) items)

def compilePiiRedaction (spec : Json) : Except String (List CompiledRedactionRule) := do
  compileRulesFrom rt 0 (← extractRules spec)

end Compile

/-- Where a path leads: to a leaf with its value, to a value it cannot descend into, or
nowhere. The location is the list of keys down to that value. -/
inductive Nav where
  | absent
  | blocked (location : List String)
  | ok (location : List String) (value : Json)

def Nav.under (key : String) : Nav → Nav
  | .absent => .absent
  | .blocked l => .blocked (key :: l)
  | .ok l v => .ok (key :: l) v

def Nav.isAbsent : Nav → Bool
  | .absent => true
  | _ => false

def navigate (o : Obj) : List String → Nav
  | [] => .absent
  | key :: rest =>
    match o.lookup key with
    | none => .absent
    | some v =>
      if rest.isEmpty then .ok [key] v
      else
        match v with
        | .obj inner => (navigate inner rest).under key
        | _ => .blocked [key]

/-- Replace (`some`) or delete (`none`) the value at a location. -/
def writeAt (o : Obj) : List String → Option Json → Obj
  | [], _ => o
  | [key], some w => Assoc.set key w o
  | [key], none => Assoc.erase key o
  | key :: rest, w =>
    match o.lookup key with
    | some (.obj inner) => Assoc.set key (.obj (writeAt inner rest w)) o
    | _ => o

/-- `h.hexdigest()`: a digit for each four bits. -/
def hexdigest (d : BitVec n) : String :=
  String.ofList ((Nat.toDigits 16 d.toNat).leftpad ((n + 3) / 4) '0')

def maskValue (fixedLen : Option Nat) (maskChar : Char) : String :=
  match fixedLen with
  | some n => String.ofList (List.replicate n maskChar)
  | none => maskSentinel

/-- A value that is already a pseudonym stays: `none` means unchanged. -/
def hashValue (rt : Runtime) (salt : Option String) (value : Json) : Option Json :=
  match value with
  | .str s =>
    if "sha256:".toList.isPrefixOf s.toList then none
    else some (.str ("sha256:" ++ hexdigest (rt.sha256 (salt.getD "" ++ s))))
  | v => some (.str ("sha256:" ++ hexdigest (rt.sha256 (salt.getD "" ++ rt.str v))))

def joinWith (sep : Char) (groups : List (List Char)) : String :=
  String.ofList ((groups.intersperse [sep]).flatten)

def maskGroups (keep : Nat) (maskChar sep : Char) (s : List Char) : String :=
  let groups := s.splitOn sep
  if groups.length ≤ keep then maskSentinel
  else joinWith sep (groups.take keep ++ (groups.drop keep).map (fun _ => [maskChar]))

/-- Fail-closed: whatever would be revealed whole is masked whole. -/
def octetsValue (keep : Nat) (maskChar : Char) (value : Json) : Json :=
  match value with
  | .str s =>
    if '.' ∈ s.toList then .str (maskGroups keep maskChar '.' s.toList)
    else if ':' ∈ s.toList then .str (maskGroups keep maskChar ':' s.toList)
    else .str maskSentinel
  | _ => .str maskSentinel

def affixesValue (kp ks : Nat) (maskChar : Char) (value : Json) : Json :=
  match value with
  | .str s =>
    let cs := s.toList
    if cs.length ≤ kp + ks then .str maskSentinel
    else .str (String.ofList (cs.take kp ++ List.replicate (cs.length - kp - ks) maskChar ++
      cs.drop (cs.length - ks)))
  | _ => .str maskSentinel

/-- The transformed value, or `none` when the action leaves it as it is. -/
def RedactionAction.transform (rt : Runtime) (action : RedactionAction) (value : Json) :
    Option Json :=
  match action with
  | .mask fixedLen c => some (.str (maskValue fixedLen c))
  | .hash salt => hashValue rt salt value
  | .octets keep c => some (octetsValue keep c value)
  | .affixes kp ks c => some (affixesValue kp ks c value)
  | .dropField => none

/-- What a rule writes where it leads, with the provenance mark it leaves. -/
def ruleWrite (rt : Runtime) (rule : CompiledRedactionRule) :
    Nav → Option (List String × Option Json × String)
  | .absent => none
  | .blocked loc =>
    -- the path enters a list or a scalar: the whole subtree goes
    match rule.action with
    | .dropField => some (loc, none, rule.pathStr ++ ":drop_field(blocked)")
    | _ => some (loc, some (.str maskSentinel), rule.pathStr ++ ":mask(blocked-list)")
  | .ok loc value =>
    match rule.action with
    | .dropField => some (loc, none, rule.pathStr ++ ":drop_field")
    | action => (action.transform rt value).map
        (fun w => (loc, some w, rule.pathStr ++ ":" ++ action.name))

def applyRule (rt : Runtime) (st : Obj × List String) (rule : CompiledRedactionRule) :
    Obj × List String :=
  match ruleWrite rt rule (navigate st.1 rule.pathParts) with
  | none => st
  | some (loc, w, mark) => (writeAt st.1 loc w, st.2 ++ [mark])

def redactionPlan (envelope : Obj) (rules : List CompiledRedactionRule) :
    List CompiledRedactionRule :=
  rules.filter (fun rule => !(navigate envelope rule.pathParts).isAbsent)

/-- The redacted copy, or `none` when no rule changed anything. -/
def applyPiiRedaction (rt : Runtime) (envelope : Obj) (rules : List CompiledRedactionRule) :
    Option Obj :=
  let st := (redactionPlan envelope rules).foldl (applyRule rt) (envelope, [])
  if st.2.isEmpty then none
  else some (Assoc.set "_centralops_redacted" (.list (st.2.map .str)) st.1)

/-- The envelope a redacting route hands on: the copy, or the original when nothing changed. -/
def redact (rt : Runtime) (rules : List CompiledRedactionRule) (envelope : Obj) : Obj :=
  (applyPiiRedaction rt envelope rules).getD envelope

/-! The label block is neither read nor written by redaction. -/

/-- Two envelopes that agree outside `_centralops`. -/
def SameBody (o o' : Obj) : Prop := ∀ k, k ≠ "_centralops" → o.lookup k = o'.lookup k

theorem SameBody.set_centralops (o : Obj) (v : Json) :
    SameBody (Assoc.set "_centralops" v o) o := by
  intro k hk
  exact Assoc.lookup_set_ne hk v o

theorem navigate_congr (h : o.lookup key = o'.lookup key) (rest : List String) :
    navigate o (key :: rest) = navigate o' (key :: rest) := by
  simp only [navigate, h]

theorem Nav.under_location {nav : Nav} {w : List String × Option Json × String}
    (h : ruleWrite rt rule (nav.under key) = some w) : ∃ l, w.1 = key :: l := by
  cases nav with
  | absent => cases h
  | blocked l =>
    simp only [Nav.under, ruleWrite] at h
    split at h <;> cases h <;> exact ⟨l, rfl⟩
  | ok l v =>
    simp only [Nav.under, ruleWrite] at h
    split at h
    · cases h; exact ⟨l, rfl⟩
    · obtain ⟨w', _, rfl⟩ := Option.map_eq_some_iff.1 h
      exact ⟨l, rfl⟩

theorem ruleWrite_location {w : List String × Option Json × String}
    (h : ruleWrite rt rule (navigate o (key :: rest)) = some w) : ∃ l, w.1 = key :: l := by
  rw [navigate] at h
  split at h
  · cases h
  · split at h
    · next v _ _ => exact @Nav.under_location _ _ _ (.ok [] v) _ h
    · split at h
      · exact Nav.under_location h
      · exact @Nav.under_location _ _ _ (.blocked []) _ h

theorem lookup_writeAt_ne (h : k ≠ key) (o : Obj) (rest : List String) (w : Option Json) :
    (writeAt o (key :: rest) w).lookup k = o.lookup k := by
  cases rest with
  | nil =>
    cases w with
    | none => exact Assoc.lookup_erase_ne h o
    | some v => exact Assoc.lookup_set_ne h v o
  | cons r rest =>
    simp only [writeAt]
    split
    · exact Assoc.lookup_set_ne h _ o
    · rfl

theorem writeAt_cons {o inner : Obj} {key : String} {loc : List String} (hloc : loc ≠ [])
    (hkey : o.lookup key = some (.obj inner)) (w : Option Json) :
    writeAt o (key :: loc) w = Assoc.set key (.obj (writeAt inner loc w)) o := by
  obtain ⟨k, loc, rfl⟩ := List.exists_cons_of_ne_nil hloc
  simp [writeAt, hkey]

theorem writeAt_stuck {o : Obj} {key : String} {loc : List String} (hloc : loc ≠ [])
    (hkey : ∀ inner, o.lookup key ≠ some (.obj inner)) (w : Option Json) :
    writeAt o (key :: loc) w = o := by
  obtain ⟨k, loc, rfl⟩ := List.exists_cons_of_ne_nil hloc
  rw [writeAt]
  · split
    · next inner heq => exact absurd heq (hkey inner)
    · rfl
  · exact fun _ _ => nofun
  · exact fun _ => nofun

theorem lookup_writeAt_congr (h : o.lookup key = o'.lookup key) (rest : List String)
    (w : Option Json) :
    (writeAt o (key :: rest) w).lookup key = (writeAt o' (key :: rest) w).lookup key := by
  cases rest with
  | nil =>
    cases w with
    | none => simp only [writeAt, Assoc.lookup_erase_self]
    | some v => simp only [writeAt, Assoc.lookup_set_self]
  | cons r rest =>
    simp only [writeAt, h]
    split
    · simp only [Assoc.lookup_set_self]
    · exact h

theorem SameBody.writeAt (h : SameBody o o') (hkey : key ≠ "_centralops") (rest : List String)
    (w : Option Json) :
    SameBody (CentralOps.writeAt o (key :: rest) w) (CentralOps.writeAt o' (key :: rest) w) := by
  intro k hk
  by_cases he : k = key
  · subst he
    exact lookup_writeAt_congr (h k hk) rest w
  · rw [lookup_writeAt_ne he, lookup_writeAt_ne he]
    exact h k hk

theorem CompiledRedactionRule.root_ne (rule : CompiledRedactionRule) :
    rule.root ≠ "_centralops" ∧ rule.root ≠ "_centralops_redacted" := by
  rcases rule.root_cases with h | h <;> rw [h] <;> decide

theorem applyRule_lookup (h : k ≠ rule.root) (st : Obj × List String) :
    (applyRule rt st rule).1.lookup k = st.1.lookup k := by
  unfold applyRule
  split
  · rfl
  · next loc w mark hw =>
    obtain ⟨l, hl⟩ := ruleWrite_location hw
    simp only at hl
    subst hl
    exact lookup_writeAt_ne h st.1 l w

theorem applyRule_absent {st : Obj × List String} (h : st.1.lookup k = none) :
    (applyRule rt st rule).1.lookup k = none := by
  by_cases hk : k = rule.root
  · have hn : navigate st.1 rule.pathParts = .absent := by
      rw [hk] at h
      simp only [CompiledRedactionRule.pathParts, navigate, h]
    simp only [applyRule, hn, ruleWrite, h]
  · rw [applyRule_lookup hk, h]

theorem applyRule_sameBody (rt : Runtime) {st st' : Obj × List String} (h : SameBody st.1 st'.1)
    (ha : st.2 = st'.2) (rule : CompiledRedactionRule) :
    SameBody (applyRule rt st rule).1 (applyRule rt st' rule).1 ∧
      (applyRule rt st rule).2 = (applyRule rt st' rule).2 := by
  have hn : navigate st.1 rule.pathParts = navigate st'.1 rule.pathParts :=
    navigate_congr (h _ rule.root_ne.1) _
  unfold applyRule
  rw [← hn]
  cases hw : ruleWrite rt rule (navigate st.1 rule.pathParts) with
  | none => exact ⟨h, ha⟩
  | some w =>
    obtain ⟨loc, v, mark⟩ := w
    obtain ⟨l, hl⟩ := ruleWrite_location hw
    simp only at hl
    subst hl
    exact ⟨h.writeAt rule.root_ne.1 l v, by simp only [ha]⟩

theorem foldl_applyRule_lookup (hk : k ∉ allowedRoots) (rules : List CompiledRedactionRule)
    (st : Obj × List String) :
    (rules.foldl (applyRule rt) st).1.lookup k = st.1.lookup k := by
  induction rules generalizing st with
  | nil => rfl
  | cons rule rules ih =>
    rw [List.foldl_cons, ih]
    apply applyRule_lookup
    intro he
    exact hk (he ▸ rule.root_allowed)

theorem foldl_applyRule_absent (rules : List CompiledRedactionRule) {st : Obj × List String}
    (h : st.1.lookup k = none) : (rules.foldl (applyRule rt) st).1.lookup k = none := by
  induction rules generalizing st with
  | nil => exact h
  | cons rule rules ih => exact ih (applyRule_absent h)

theorem foldl_applyRule_sameBody (rt : Runtime) (rules : List CompiledRedactionRule)
    {st st' : Obj × List String} (h : SameBody st.1 st'.1) (ha : st.2 = st'.2) :
    SameBody (rules.foldl (applyRule rt) st).1 (rules.foldl (applyRule rt) st').1 ∧
      (rules.foldl (applyRule rt) st).2 = (rules.foldl (applyRule rt) st').2 := by
  induction rules generalizing st st' with
  | nil => exact ⟨h, ha⟩
  | cons rule rules ih =>
    obtain ⟨h', ha'⟩ := applyRule_sameBody rt h ha rule
    exact ih h' ha'

theorem redactionPlan_sameBody (h : SameBody o o') (rules : List CompiledRedactionRule) :
    redactionPlan o rules = redactionPlan o' rules := by
  apply List.filter_congr
  intro rule _
  rw [CompiledRedactionRule.pathParts, navigate_congr (h _ rule.root_ne.1)]

theorem redact_lookup (rt : Runtime) (rules : List CompiledRedactionRule) (o : Obj)
    (hk : k ∉ allowedRoots) (hk' : k ≠ "_centralops_redacted") :
    (redact rt rules o).lookup k = o.lookup k := by
  unfold redact applyPiiRedaction
  dsimp only
  split
  · rfl
  · simp only [Option.getD_some]
    rw [Assoc.lookup_set_ne hk', foldl_applyRule_lookup hk]

theorem redact_centralops (rt : Runtime) (rules : List CompiledRedactionRule) (o : Obj) :
    (redact rt rules o).lookup "_centralops" = o.lookup "_centralops" :=
  redact_lookup rt rules o (by decide) (by decide)

theorem redact_absent (rt : Runtime) (rules : List CompiledRedactionRule)
    (h : o.lookup k = none) (hk' : k ≠ "_centralops_redacted") :
    (redact rt rules o).lookup k = none := by
  unfold redact applyPiiRedaction
  dsimp only
  split
  · exact h
  · simp only [Option.getD_some]
    rw [Assoc.lookup_set_ne hk']
    exact foldl_applyRule_absent _ h

theorem redact_sameBody (rt : Runtime) (rules : List CompiledRedactionRule)
    (h : SameBody o o') : SameBody (redact rt rules o) (redact rt rules o') := by
  obtain ⟨hb, ha⟩ :=
    @foldl_applyRule_sameBody rt (redactionPlan o' rules) (o, []) (o', []) h rfl
  unfold redact applyPiiRedaction
  rw [redactionPlan_sameBody h]
  simp only [ha]
  split
  · exact h
  · intro k hk
    simp only [Option.getD_some]
    by_cases he : k = "_centralops_redacted"
    · subst he
      rw [Assoc.lookup_set_self, Assoc.lookup_set_self]
    · rw [Assoc.lookup_set_ne he, Assoc.lookup_set_ne he]
      exact hb k hk

end CentralOps
