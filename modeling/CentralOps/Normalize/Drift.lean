import CentralOps.Lib.PyText
import CentralOps.Lib.PrunedWalk
import CentralOps.Normalize.Document

namespace CentralOps
set_option autoImplicit true

/-- Python's tables of Unicode. -/
structure UnicodeTables where
  lower : String → String
  lower_eq_empty : ∀ s, lower s = "" ↔ s = ""
  /-- `str.isalpha` of a character. -/
  isAlpha : Char → Bool
  /-- `str.isdigit` of a character. -/
  isDigit : Char → Bool

def maxListSamples : Nat := 3
def maxPathsPerEvent : Nat := 500
def maxWalkDepth : Nat := 32

section Extraction
variable (tables : UnicodeTables)

/-- `(?:[^q\\]|\\.)*q`, for a quote `q`: what the quotes enclose, and the text after them. -/
def quotedBody (q : Char) : List Char → Option (List Char × List Char)
  | [] => none
  | c :: s =>
    if c = q then some ([], s)
    else if c = '\\' then
      match s with
      | [] => none
      | d :: s =>
        if d = '\n' then none else (quotedBody q s).map (fun p => (c :: d :: p.1, p.2))
    else (quotedBody q s).map (fun p => (c :: p.1, p.2))

/-- `_STRING_LITERAL_RE.sub(" ", branch)`, with the rest of a literal still to pass. -/
def blankLiterals : Nat → List Char → List Char
  | _, [] => []
  | n + 1, _ :: s => blankLiterals n s
  | 0, c :: s =>
    if c = '\'' then
      match quotedBody '\'' s with
      | some (body, _) => ' ' :: blankLiterals (body.length + 1) s
      | none => c :: blankLiterals 0 s
    else c :: blankLiterals 0 s

/-- `m.group(1).replace('\\"', '"')`. -/
def unescapeQuotes : List Char → List Char
  | '\\' :: '"' :: s => '"' :: unescapeQuotes s
  | c :: s => c :: unescapeQuotes s
  | [] => []

/-- `expr.split("||")`. -/
def splitOr : List Char → List (List Char)
  | '|' :: '|' :: s => [] :: splitOr s
  | c :: s =>
    match splitOr s with
    | part :: parts => (c :: part) :: parts
    | [] => [[c]]
  | [] => [[]]

def bracketed (opening closing : Char) : Nat → List Char → List Char × List Char
  | _, [] => ([], [])
  | depth, c :: s =>
    if c = opening then (bracketed opening closing (depth + 1) s).map (c :: ·) id
    else if c = closing then
      if depth = 1 then ([], s) else (bracketed opening closing (depth - 1) s).map (c :: ·) id
    else (bracketed opening closing depth s).map (c :: ·) id

def bareStart (c : Char) : Bool := c.isAlpha || c == '_'

def bareRest (c : Char) : Bool := c.isAlphanum || c == '_'

/-- `_flush`. -/
def flushPath (segments found : List String) : List String :=
  if segments = [] then found else found ++ [".".intercalate segments]

def leavesPath (inner : List Char) : Bool :=
  let stripped := pyStrip inner
  stripped = [] || stripped = ['*'] || stripped.all tables.isDigit

/-- `_walk`, with one unit of fuel for each character; `none` is its `AssertionError`. -/
def extractGo : Nat → List Char → List String → List String → Option (List String)
  | _, [], segments, found => some (flushPath segments found)
  | 0, _ :: _, _, found => some found
  | fuel + 1, c :: s, segments, found =>
    if c = '"' then
      match quotedBody '"' s with
      | none => some (flushPath segments found)
      | some (body, rest) =>
        extractGo fuel rest (segments ++ [String.ofList (unescapeQuotes body)]) found
    else if c = '_' || tables.isAlpha c then
      -- a letter that is not an ASCII one starts no identifier
      if !bareStart c then none
      else
        let name := String.ofList (c :: s.takeWhile bareRest)
        let rest := s.dropWhile bareRest
        if rest.head? = some '(' then extractGo fuel rest [] (flushPath segments found)
        else extractGo fuel rest (segments ++ [name]) found
    else if c = '.' then extractGo fuel s segments found
    else if c = '[' || c = '(' then
      let (inner, rest) := bracketed c (if c = '[' then ']' else ')') 1 s
      if c = '[' && leavesPath tables inner then extractGo fuel rest segments found
      else do
        let found ← extractGo fuel inner [] (flushPath segments found)
        extractGo fuel rest [] found
    else extractGo fuel s [] (flushPath segments found)

abbrev SourcePath := { p : String // p ≠ "" }

/-- `_extract_source_paths`. -/
def extractSourcePaths (expr : String) : Option (List SourcePath) := do
  let found ← (splitOr expr.toList).foldlM (fun found branch =>
    let text := blankLiterals 0 branch
    extractGo tables (text.length + 1) text [] found) []
  some (found.filterMap (fun p => if h : p = "" then none else some ⟨p, h⟩))

end Extraction

/-- The paths that a mapping is known to read, or the top keys of a mapping that names none. -/
structure ConsumedIndex where
  exact : List String
  legacyTopKeys : List String
  exact_ne : "" ∉ exact
  legacy_ne : "" ∉ legacyTopKeys
  deriving DecidableEq

/-- The rest of a text that starts with another. -/
def withoutPrefix (pre s : String) : Option String :=
  (pre.toList.isPrefixOf? s.toList).map String.ofList

def headUpTo (stops : List Char) (s : String) : String :=
  String.ofList (s.toList.takeWhile (fun c => c ∉ stops))

/-- The top key of a target, without its `normalized.`. -/
def targetTopKey (target : String) : String :=
  headUpTo ['.', '['] ((withoutPrefix "normalized." target).getD target)

/-- `_ConsumedIndex`. Fields of the virtual namespace `_` count on neither side. -/
def consumedIndex (tables : UnicodeTables) (consumed : List String) : Option ConsumedIndex := do
  let sources := consumed.filterMap (withoutPrefix "source:")
  let targets := consumed.filter (fun cp =>
    (withoutPrefix "source:" cp).isNone && (withoutPrefix "_" cp).isNone)
  let read ← (sources.filter (fun expr => (withoutPrefix "_" expr).isNone)).mapM
    (extractSourcePaths tables)
  let paths := read.flatten
  let topKeys := if paths = [] then (targets.map targetTopKey).filter (· ≠ "") else []
  some {
    exact := paths.map (fun p => tables.lower p.val)
    legacyTopKeys := topKeys.map tables.lower
    exact_ne := by
      intro h
      obtain ⟨p, _, hp⟩ := List.mem_map.1 h
      exact p.property ((tables.lower_eq_empty p.val).1 hp)
    legacy_ne := by
      intro h
      obtain ⟨p, hmem, hp⟩ := List.mem_map.1 h
      rw [tables.lower_eq_empty] at hp
      subst hp
      simp only [topKeys] at hmem
      split at hmem
      · simp at hmem
      · cases hmem }

/-- How far an index of an array goes, from behind its opening bracket. -/
def indexEnd : List Char → Option Nat
  | [] => none
  | c :: s =>
    if c = ']' then some 1
    else if Py.isDecimal (Py.ch c) then (indexEnd s).map (· + 1)
    else none

/-- `_ARRAY_INDEX_RE.sub("", path)`, with the rest of an index still to pass. -/
def stripIndices : Nat → List Char → List Char
  | _, [] => []
  | n + 1, _ :: s => stripIndices n s
  | 0, c :: s =>
    if c = '[' then
      match indexEnd s with
      | some n => stripIndices n s
      | none => c :: stripIndices 0 s
    else c :: stripIndices 0 s

/-- Whether a known path ends before some dot of a reversed text, other than at its start. -/
def knownAbove (known : List String) : Nat → List Char → Bool
  | 0, _ => false
  | fuel + 1, r =>
    match r.dropWhile (· ≠ '.') with
    | _ :: c :: rest =>
      known.contains (String.ofList (c :: rest).reverse) || knownAbove known fuel (c :: rest)
    | _ => false

namespace ConsumedIndex
variable (tables : UnicodeTables)

/-- `_normalize`. -/
def normalize (path : String) : String :=
  tables.lower (String.ofList (stripIndices 0 path.toList))

def covers (index : ConsumedIndex) (path : String) : Bool :=
  let norm := normalize tables path
  index.legacyTopKeys.contains (headUpTo ['.'] norm) || index.exact.contains norm ||
    knownAbove index.exact norm.toList.length norm.toList.reverse

end ConsumedIndex

section Walk
variable (view : ν → Shape Scalar ν) (isCovered : String → Bool)

def keyPath (pre key : String) : String := if pre = "" then key else pre ++ "." ++ key

def indexPath (pre : String) (i : Nat) : String := pre ++ "[" ++ toString i ++ "]"

/-- `flatten_paths`, with the levels that are left instead of the depth. The objects are those of any
graph, a cyclic one too. -/
def flattenPaths : Nat → String → ν → List (String × ν) → List (String × ν)
  | 0, _, _, out => out
  | left + 1, pre, v, out =>
    if maxPathsPerEvent ≤ out.length then out
    else if pre ≠ "" && isCovered pre then out
    else match view v with
      | .dict [] => out ++ [(if pre = "" then "\x7b\x7d" else pre, v)]
      | .dict fields =>
        PrunedWalk.collect maxPathsPerEvent
          (fun (f : String × ν) => flattenPaths left (keyPath pre f.1) f.2) fields out
      | .list [] => out ++ [(pre ++ "[]", v)]
      | .list xs =>
        PrunedWalk.collect maxPathsPerEvent
          (fun (x : ν × Nat) => flattenPaths left (indexPath pre x.2) x.1)
          (xs.take maxListSamples).zipIdx out
      | .scalar _ => out ++ [(pre, v)]

end Walk

/-- The paths of an event that the index does not cover. -/
def unknownPaths (tables : UnicodeTables) (view : ν → Shape Scalar ν) (index : ConsumedIndex)
    (raw : ν) : List (String × ν) :=
  flattenPaths view (index.covers tables) (maxWalkDepth + 1) "" raw []

/-- `compute_unknown_paths`. -/
def computeUnknownPaths (tables : UnicodeTables) (view : ν → Shape Scalar ν) (raw : ν)
    (consumed : List String) : Option (List (String × ν)) :=
  (consumedIndex tables consumed).map (fun index => unknownPaths tables view index raw)

end CentralOps
