import CentralOps.Inflight.Matcher
import CentralOps.Lib.Calendar
import CentralOps.Lib.Grouping
import CentralOps.Lib.Sweep
import Mathlib.Algebra.Order.Field.Rat
import Mathlib.Data.List.Sort

namespace CentralOps
set_option autoImplicit true

def roundFloat (q : Rat) : PyFloat :=
  if q = 0 then .finite 0
  else
    let bits : Int := |q|.num.natAbs.log2 - |q|.den.log2
    let top := if (2 : Rat) ^ bits ≤ |q| then bits else bits - 1
    let unit : Rat := 2 ^ max (top - 52) (-1074)
    let units := |q| / unit
    let below := units.floor
    let rest := units - below
    let rounded := if 1 / 2 < rest ∨ rest = 1 / 2 ∧ below % 2 = 1 then below + 1 else below
    if (2 : Rat) ^ (1024 : Int) ≤ rounded * unit then .inf (decide (q < 0))
    else .finite (if q < 0 then -(rounded * unit) else rounded * unit)

namespace PyFloat

def sub : PyFloat → PyFloat → PyFloat
  | .finite p, .finite q => roundFloat (p - q)
  | .finite _, .inf b => .inf !b
  | .inf a, .finite _ => .inf a
  | .inf a, .inf b => if a = b then .nan else .inf a
  | _, _ => .nan

/-- `x / n` for a power of ten that is a float. -/
def div : PyFloat → Nat → PyFloat
  | .finite q, n => roundFloat (q / n)
  | x, _ => x

def abs : PyFloat → PyFloat
  | .finite q => .finite |q|
  | .inf _ => .inf false
  | .nan => .nan

/-- The order of `sorted`: an element stands before another unless that one is less. -/
def notAfter (x y : PyFloat) : Prop := y.lt x = false

instance : DecidableRel notAfter := fun x y => inferInstanceAs (Decidable (y.lt x = false))

def value : PyFloat → Rat
  | .finite q => q
  | _ => 0

end PyFloat

structure ThresholdRule where
  groupByField : Option String
  minCount : Int
  windowSeconds : Int
  timestampField : Option String
  /-- `json.loads(where_json or "[]")`, or nothing where that raises. -/
  conditions : Option Json

def thresholdOps : List String := ["eq", "ne", "contains", "gt", "lt", "gte", "lte"]

/-- `extract_path`. -/
def extractPath (item dotted : Json) : Except PyError Json :=
  if !dotted.truthy then .ok .null
  else
    match dotted with
    | .str path => .ok (getPath item (splitDots path))
    | _ => .error .attributeError

section Evaluate
variable (rt : MappingRuntime)

def numericFilter (op : Ordering4) (actual target : Json) : Except PyError Bool := do
  let a ← num rt actual
  let b ← num rt target
  match a, b with
  | some a, some b => pure (op.floats a b)
  | _, _ => pure false

/-- A filter in the loop of `matches_where`. -/
def matchesFilter (item flt : Json) : Except PyError Bool :=
  match flt with
  | .obj flt => do
    let target := Obj.getN flt "value"
    match (flt.lookup "op").getD (.str "eq") with
    | .str op =>
      if op ∉ thresholdOps then pure false
      else
        let actual ← extractPath item (Obj.getN flt "field")
        if op = "eq" then
          if actual = .null then pure false
          else pure ((← documents.str rt () actual) == (← documents.str rt () target))
        else if op = "ne" then
          if actual = .null then pure true
          else pure !((← documents.str rt () actual) == (← documents.str rt () target))
        else if op = "contains" then
          if actual = .null then pure false
          else
            let needle ← documents.str rt () target
            let hay ← documents.str rt () actual
            pure (isSubstring needle hay)
        else if op = "gt" then numericFilter rt .gt actual target
        else if op = "lt" then numericFilter rt .lt actual target
        else if op = "gte" then numericFilter rt .ge actual target
        else numericFilter rt .le actual target
    | _ => pure false
  | _ => .error .attributeError

/-- `matches_where`. -/
def matchesWhere (item : Json) : List Json → Except PyError Bool
  | [] => .ok true
  | flt :: filters => do
    if ← matchesFilter rt item flt then matchesWhere item filters else pure false

def scaleEpoch (x : PyFloat) : PyFloat :=
  let size := x.abs
  if Ordering4.ge.floats size (.finite (10 ^ 17)) then x.div (10 ^ 9)
  else if Ordering4.ge.floats size (.finite (10 ^ 14)) then x.div (10 ^ 6)
  else if Ordering4.ge.floats size (.finite (10 ^ 11)) then x.div (10 ^ 3)
  else x

/-- `dt.timestamp()`, where a naive one is of UTC. -/
def timestampOf (dt : Py.DateTime) : PyFloat :=
  roundFloat ((dt.wall - dt.offset.getD 0 - 719162 * Py.dayMicros : Int) / (10 ^ 6 : Nat))

/-- `_parse_ts`. -/
def parseTs (v : Json) : Except PyError (Option PyFloat) :=
  if v = .null then .ok none
  else do
    match ← num rt v with
    | some x => pure (some (scaleEpoch x))
    | none =>
      match documents.str rt () v with
      | .ok s =>
        pure ((Py.fromIsoFormat (Py.replace (Py.text "Z") (Py.text "+00:00")
          (Py.strip Py.isSpace (Py.text s)))).map timestampOf)
      | .error .valueError => pure none
      | .error .typeError => pure none
      | .error e => .error e

/-- `ts[right] - ts[left] > window_seconds`. -/
def beyondWindow (windowSeconds : Int) (right left : PyFloat) : Bool :=
  PyFloat.lt (.finite windowSeconds) (right.sub left)

/-- `_window_max_count`. With a NaN the order of `sorted` depends on its algorithm. -/
def windowMaxCount (timestamps : List PyFloat) (windowSeconds : Int) : Nat :=
  Sweep.most (beyondWindow windowSeconds) (timestamps.insertionSort PyFloat.notAfter)

structure Hit where
  group : String
  count : Nat
  sample : Json
  deriving DecidableEq

def groupOf (filters : List Json) (field : String) (item : Json) :
    Except PyError (Option String) :=
  match item with
  | .obj _ => do
    if ← matchesWhere rt item filters then
      match ← extractPath item (.str field) with
      | .null => pure none
      | key => pure (some (← documents.str rt () key))
    else pure none
  | _ => .ok none

def collectGroups (filters : List Json) (field : String) :
    List Json → Dict String (List Json) → Except PyError (Dict String (List Json))
  | [], groups => .ok groups
  | item :: items, groups => do
    match ← groupOf rt filters field item with
    | some key => collectGroups filters field items (groups.push key item)
    | none => collectGroups filters field items groups

def parseAll (field : String) : List Json → Except PyError (List PyFloat)
  | [] => .ok []
  | item :: items => do
    let x ← parseTs rt (← extractPath item (.str field))
    let rest ← parseAll field items
    pure (x.toList ++ rest)

variable (rule : ThresholdRule)

def ThresholdRule.windowField : Option String :=
  if 0 < rule.windowSeconds then rule.timestampField.filter (· ≠ "") else none

def countGroup (events : List Json) : Except PyError Nat :=
  match rule.windowField with
  | some field => do
    let timestamps ← parseAll rt field events
    pure (windowMaxCount timestamps rule.windowSeconds)
  | none => .ok events.length

def hitsOf : List (String × List Json) → Except PyError (List Hit)
  | [] => .ok []
  | (key, events) :: groups => do
    let count ← countGroup rt rule events
    let rest ← hitsOf groups
    pure (if rule.minCount ≤ count then ⟨key, count, events.head?.getD .null⟩ :: rest else rest)

/-- `evaluate_threshold`. -/
def evaluateThreshold (items : List Json) : Except PyError (List Hit) :=
  match rule.conditions with
  | some (.list filters) =>
    match rule.groupByField.filter (· ≠ "") with
    | none => .ok []
    | some field =>
      if rule.minCount ≤ 0 then .ok []
      else do
        let groups ← collectGroups rt filters field items .empty
        hitsOf rt rule groups.entries
  | _ => .ok []

end Evaluate

section Definition
variable (rt : MappingRuntime) (rule : ThresholdRule) (filters : List Json) (field : String)

def placeOf (item : Json) : Option String := (groupOf rt filters field item).toOption.join

/-- What `_parse_ts` makes of a field of an item. -/
def readTime (timeField : String) (item : Json) : Except PyError (Option PyFloat) := do
  parseTs rt (← extractPath item (.str timeField))

def instantOf (timeField : String) (item : Json) : Option Rat :=
  match readTime rt timeField item with
  | .ok (some (.finite q)) => some q
  | _ => none

def membersOf (items : List Json) (g : String) : List Json :=
  items.filter (fun item => placeOf rt filters field item = some g)

def inWindow (width : Int) (instants : List Rat) (a : Rat) : Nat :=
  instants.countP (fun q => decide (a ≤ q ∧ q ≤ a + width))

/-- A group fires with a count: its matching items, or the most of them in any closed interval of
the window's length. -/
def Fires (items : List Json) (g : String) (n : Nat) : Prop :=
  rule.minCount ≤ n ∧
    match rule.windowField with
    | some timeField =>
      let instants := (membersOf rt filters field items g).filterMap (instantOf rt timeField)
      (∃ a, inWindow rule.windowSeconds instants a = n) ∧
        ∀ a, inWindow rule.windowSeconds instants a ≤ n
    | none => n = (membersOf rt filters field items g).length

/-- No item raises where it is filtered and grouped, and where the window is on, none that is
grouped raises where its time is read. -/
structure NothingRaises (items : List Json) : Prop where
  placed : ∀ item ∈ items, ∃ g, groupOf rt filters field item = .ok g
  timed : ∀ timeField, rule.windowField = some timeField → ∀ item ∈ items,
    placeOf rt filters field item ≠ none → ∃ x, readTime rt timeField item = .ok x

/-- Besides, no time of a grouped item is an infinity or a NaN, and the rounded distance of two
times of a group is beyond the window where the exact one is. -/
structure Readable (items : List Json) : Prop extends NothingRaises rt rule filters field items where
  finite : ∀ timeField, rule.windowField = some timeField → ∀ item ∈ items,
    placeOf rt filters field item ≠ none →
    ∀ x, readTime rt timeField item = .ok (some x) → ∃ q, x = .finite q
  measured : ∀ timeField, rule.windowField = some timeField → ∀ item ∈ items, ∀ other ∈ items,
    placeOf rt filters field item ≠ none →
    placeOf rt filters field item = placeOf rt filters field other →
    ∀ p ∈ instantOf rt timeField item, ∀ q ∈ instantOf rt timeField other, p ≤ q →
      (beyondWindow rule.windowSeconds (.finite q) (.finite p) = true ↔ rule.windowSeconds < q - p)

/-- In whatever order the items come, there is one hit for each group that fires. -/
def Correlates (items : List Json) : Prop :=
  ∀ items', items'.Perm items → ∃ hits, evaluateThreshold rt rule items' = .ok hits ∧
    (hits.map Hit.group).Nodup ∧
    ∀ g n, (∃ h ∈ hits, h.group = g ∧ h.count = n) ↔ Fires rt rule filters field items g n

end Definition

section Grouped
variable {rt : MappingRuntime} {rule : ThresholdRule} {filters : List Json} {field : String}
  {items : List Json}

def itemGroup (rt : MappingRuntime) (filters : List Json) (field : String) (item : Json) : String :=
  (placeOf rt filters field item).getD ""

def keptItems (rt : MappingRuntime) (filters : List Json) (field : String) (items : List Json) :
    List Json :=
  items.filter (fun item => (placeOf rt filters field item).isSome)

theorem collectGroups_eq (h : ∀ item ∈ items, ∃ g, groupOf rt filters field item = .ok g)
    (groups : Dict String (List Json)) :
    collectGroups rt filters field items groups = .ok (groups.pushAll
      ((keptItems rt filters field items).map
        (fun item => (itemGroup rt filters field item, item)))) := by
  induction items generalizing groups with
  | nil => rfl
  | cons item items ih =>
    obtain ⟨⟨g, hg⟩, h⟩ := List.forall_mem_cons.1 h
    have hplace : placeOf rt filters field item = g := by
      rw [placeOf, hg]
      cases g <;> rfl
    rw [collectGroups, hg, keptItems, List.filter_cons, hplace]
    cases g with
    | none => exact ih h groups
    | some key =>
      have hkey : itemGroup rt filters field item = key := by rw [itemGroup, hplace, Option.getD_some]
      rw [if_pos (by rfl), List.map_cons, hkey]
      exact ih h (groups.push key item)

theorem placed_of_collectGroups {groups d : Dict String (List Json)}
    (h : collectGroups rt filters field items groups = .ok d) :
    ∀ item ∈ items, ∃ g, groupOf rt filters field item = .ok g := by
  induction items generalizing groups with
  | nil =>
    intro item hitem
    cases hitem
  | cons item items ih =>
    rw [collectGroups] at h
    cases hg : groupOf rt filters field item with
    | error e =>
      rw [hg] at h
      cases h
    | ok g =>
      rw [hg] at h
      rw [List.forall_mem_cons]
      refine ⟨⟨g, hg⟩, ?_⟩
      cases g with
      | none => exact ih h
      | some key => exact ih h

theorem members_keptItems (g : String) :
    Grouping.members (itemGroup rt filters field) (keptItems rt filters field items) g =
      membersOf rt filters field items g := by
  rw [Grouping.members, keptItems, membersOf, List.filter_filter]
  apply List.filter_congr
  intro item _
  rw [itemGroup]
  cases placeOf rt filters field item <;> simp

theorem mem_keys_keptItems (g : String) :
    g ∈ Grouping.keys (itemGroup rt filters field) (keptItems rt filters field items) ↔
      membersOf rt filters field items g ≠ [] := by
  rw [← members_keptItems]
  constructor
  · exact Grouping.members_ne_nil
  · intro hne
    by_contra hmem
    exact hne (Grouping.members_eq_nil hmem)

def timeOf (rt : MappingRuntime) (timeField : String) (item : Json) : Option PyFloat :=
  (readTime rt timeField item).toOption.join

theorem parseAll_eq {timeField : String} {events : List Json}
    (h : ∀ item ∈ events, ∃ x, readTime rt timeField item = .ok x) :
    parseAll rt timeField events = .ok (events.filterMap (timeOf rt timeField)) := by
  induction events with
  | nil => rfl
  | cons item events ih =>
    obtain ⟨⟨x, hx⟩, h⟩ := List.forall_mem_cons.1 h
    have htime : timeOf rt timeField item = x := by
      rw [timeOf, hx]
      cases x <;> rfl
    rw [readTime] at hx
    rw [parseAll, List.filterMap_cons, htime, ih h]
    cases hpath : extractPath item (.str timeField) with
    | error e =>
      rw [hpath] at hx
      cases hx
    | ok v =>
      rw [hpath] at hx
      change parseTs rt v = .ok x at hx
      change (do
        let x ← parseTs rt v
        pure (x.toList ++ events.filterMap (timeOf rt timeField))) = _
      rw [hx]
      cases x <;> rfl

theorem timed_of_parseAll {timeField : String} {events : List Json} {xs : List PyFloat}
    (h : parseAll rt timeField events = .ok xs) :
    ∀ item ∈ events, ∃ x, readTime rt timeField item = .ok x := by
  induction events generalizing xs with
  | nil =>
    intro item hitem
    cases hitem
  | cons item events ih =>
    rw [parseAll] at h
    rw [List.forall_mem_cons, readTime]
    cases hpath : extractPath item (.str timeField) with
    | error e =>
      rw [hpath] at h
      cases h
    | ok v =>
      rw [hpath] at h
      change (parseTs rt v).bind _ = _ at h
      change (∃ x, parseTs rt v = .ok x) ∧ _
      cases hx : parseTs rt v with
      | error e =>
        rw [hx] at h
        cases h
      | ok x =>
        rw [hx] at h
        change (parseAll rt timeField events).bind _ = _ at h
        cases hrest : parseAll rt timeField events with
        | error e =>
          rw [hrest] at h
          cases h
        | ok rest => exact ⟨⟨x, rfl⟩, ih hrest⟩

def groupSize (rt : MappingRuntime) (rule : ThresholdRule) (events : List Json) : Nat :=
  match rule.windowField with
  | some timeField => windowMaxCount (events.filterMap (timeOf rt timeField)) rule.windowSeconds
  | none => events.length

theorem countGroup_eq {events : List Json} (h : ∀ timeField, rule.windowField = some timeField →
      ∀ item ∈ events, ∃ x, readTime rt timeField item = .ok x) :
    countGroup rt rule events = .ok (groupSize rt rule events) := by
  rw [countGroup, groupSize]
  cases hfield : rule.windowField with
  | none => rfl
  | some timeField =>
    simp only [parseAll_eq (h timeField hfield)]
    rfl

theorem timed_of_countGroup {events : List Json} {n : Nat}
    (h : countGroup rt rule events = .ok n) {timeField : String}
    (hfield : rule.windowField = some timeField) :
    ∀ item ∈ events, ∃ x, readTime rt timeField item = .ok x := by
  rw [countGroup, hfield] at h
  cases hparse : parseAll rt timeField events with
  | error e =>
    simp only [hparse] at h
    cases h
  | ok xs => exact timed_of_parseAll hparse

theorem counted_of_hitsOf {groups : List (String × List Json)} {hits : List Hit}
    (h : hitsOf rt rule groups = .ok hits) :
    ∀ p ∈ groups, ∃ n, countGroup rt rule p.2 = .ok n := by
  induction groups generalizing hits with
  | nil =>
    intro p hp
    cases hp
  | cons p groups ih =>
    rw [hitsOf] at h
    rw [List.forall_mem_cons]
    cases hcount : countGroup rt rule p.2 with
    | error e =>
      rw [hcount] at h
      cases h
    | ok n =>
      rw [hcount] at h
      change (hitsOf rt rule groups).bind _ = _ at h
      cases hrest : hitsOf rt rule groups with
      | error e =>
        rw [hrest] at h
        cases h
      | ok rest => exact ⟨⟨n, rfl⟩, ih hrest⟩

theorem hitsOf_eq {groups : List (String × List Json)}
    (h : ∀ p ∈ groups, countGroup rt rule p.2 = .ok (groupSize rt rule p.2)) :
    hitsOf rt rule groups = .ok (groups.filterMap (fun p =>
      if rule.minCount ≤ groupSize rt rule p.2 then
        some ⟨p.1, groupSize rt rule p.2, p.2.head?.getD .null⟩
      else none)) := by
  induction groups with
  | nil => rfl
  | cons p groups ih =>
    obtain ⟨hp, h⟩ := List.forall_mem_cons.1 h
    rw [hitsOf, hp, ih h, List.filterMap_cons]
    change Except.ok (if rule.minCount ≤ groupSize rt rule p.2 then _ else _) = _
    split <;> rfl

end Grouped

section Counted

@[simp] theorem PyFloat.notAfter_finite (p q : Rat) :
    PyFloat.notAfter (.finite p) (.finite q) ↔ p ≤ q := by
  rw [PyFloat.notAfter, PyFloat.lt, decide_eq_false_iff_not, not_lt]

theorem insertionSort_finite (instants : List Rat) :
    (instants.map PyFloat.finite).insertionSort PyFloat.notAfter =
      (instants.insertionSort (· ≤ ·)).map .finite :=
  (List.map_insertionSort _ _ _ _ fun p _ q _ => (PyFloat.notAfter_finite p q).symm).symm

/-- The two pointers find the most instants of any interval of the window's length. -/
theorem windowMaxCount_spec {instants : List Rat} {windowSeconds : Int}
    (hwindow : 0 ≤ windowSeconds)
    (hmeasured : ∀ p ∈ instants, ∀ q ∈ instants, p ≤ q →
      (beyondWindow windowSeconds (.finite q) (.finite p) = true ↔ windowSeconds < q - p)) :
    (∀ a, inWindow windowSeconds instants a ≤
      windowMaxCount (instants.map .finite) windowSeconds) ∧
    ∃ a, inWindow windowSeconds instants a =
      windowMaxCount (instants.map .finite) windowSeconds := by
  have hcount : ∀ a, ((instants.insertionSort (· ≤ ·)).map PyFloat.finite).countP
      (Sweep.window PyFloat.value (windowSeconds : Rat) a) = inWindow windowSeconds instants a := by
    intro a
    rw [List.countP_map, inWindow]
    exact (List.perm_insertionSort _ instants).countP_eq _
  have hsorted : ((instants.insertionSort (· ≤ ·)).map PyFloat.finite).Pairwise
      (fun x y => x.value ≤ y.value) :=
    List.pairwise_map.2 (List.pairwise_insertionSort (· ≤ ·) instants)
  have hfar : Sweep.Measures PyFloat.value (windowSeconds : Rat) (beyondWindow windowSeconds)
      ((instants.insertionSort (· ≤ ·)).map .finite) := by
    intro x hx y hy hxy
    obtain ⟨p, hp, rfl⟩ := List.mem_map.1 hx
    obtain ⟨q, hq, rfl⟩ := List.mem_map.1 hy
    exact hmeasured p ((List.mem_insertionSort _).1 hp) q ((List.mem_insertionSort _).1 hq) hxy
  have hspec := Sweep.most_spec PyFloat.value (windowSeconds : Rat) (beyondWindow windowSeconds)
    (by exact_mod_cast hwindow) hsorted hfar
  rw [windowMaxCount, insertionSort_finite]
  simp only [hcount] at hspec
  exact hspec

end Counted

section Hits
variable {rt : MappingRuntime} {rule : ThresholdRule} {filters : List Json} {field : String}
  {items items' : List Json}

theorem evaluateThreshold_eq (hconditions : rule.conditions = some (.list filters))
    (hfield : rule.groupByField = some field) (hne : field ≠ "") (hmin : 1 ≤ rule.minCount) :
    evaluateThreshold rt rule items =
      (collectGroups rt filters field items .empty).bind
        (fun groups => hitsOf rt rule groups.entries) := by
  have hsome : rule.groupByField.filter (fun s => decide (s ≠ "")) = some field := by
    simp [hfield, hne]
  simp only [evaluateThreshold, hconditions, hsome]
  rw [if_neg (by omega)]
  rfl

theorem collected (h : ∀ item ∈ items, ∃ g, groupOf rt filters field item = .ok g) :
    ∃ groups, collectGroups rt filters field items .empty = .ok groups ∧
      groups.entries = (Grouping.keys (itemGroup rt filters field)
        (keptItems rt filters field items)).map
          (fun g => (g, membersOf rt filters field items g)) := by
  refine ⟨_, collectGroups_eq h _, ?_⟩
  rw [Grouping.entries_pushAll]
  apply List.map_congr_left
  intro g _
  rw [members_keptItems]

theorem mem_membersOf {item : Json} {g : String} :
    item ∈ membersOf rt filters field items g ↔
      item ∈ items ∧ placeOf rt filters field item = some g := by
  rw [membersOf, List.mem_filter, decide_eq_true_iff]

theorem NothingRaises.members_timed (h : NothingRaises rt rule filters field items) (g : String)
    {timeField : String} (hwindow : rule.windowField = some timeField) :
    ∀ item ∈ membersOf rt filters field items g, ∃ x, readTime rt timeField item = .ok x := by
  intro item hitem
  obtain ⟨hitem, hplace⟩ := mem_membersOf.1 hitem
  exact h.timed timeField hwindow item hitem (by simp [hplace])

def hitOf (rt : MappingRuntime) (rule : ThresholdRule) (filters : List Json) (field : String)
    (items : List Json) (g : String) : Option Hit :=
  let events := membersOf rt filters field items g
  if rule.minCount ≤ groupSize rt rule events then
    some ⟨g, groupSize rt rule events, events.head?.getD .null⟩
  else none

theorem timeOf_finite {timeField : String} {item : Json}
    (h : ∀ x, readTime rt timeField item = .ok (some x) → ∃ q, x = .finite q) :
    timeOf rt timeField item = (instantOf rt timeField item).map .finite := by
  rw [timeOf, instantOf]
  cases hread : readTime rt timeField item with
  | error e => rfl
  | ok x =>
    cases x with
    | none => rfl
    | some x =>
      obtain ⟨q, rfl⟩ := h x hread
      rfl

theorem Readable.times (h : Readable rt rule filters field items) (g : String) {timeField : String}
    (hwindow : rule.windowField = some timeField) :
    (membersOf rt filters field items g).filterMap (timeOf rt timeField) =
      ((membersOf rt filters field items g).filterMap (instantOf rt timeField)).map .finite := by
  rw [List.map_filterMap]
  apply List.filterMap_congr
  intro item hitem
  obtain ⟨hitem, hplace⟩ := mem_membersOf.1 hitem
  exact timeOf_finite (h.finite timeField hwindow item hitem (by simp [hplace]))

theorem window_pos {timeField : String} (hwindow : rule.windowField = some timeField) :
    0 < rule.windowSeconds := by
  rw [ThresholdRule.windowField] at hwindow
  split at hwindow
  · assumption
  · cases hwindow

theorem Readable.fires_iff (h : Readable rt rule filters field items) (g : String) (n : Nat) :
    Fires rt rule filters field items g n ↔
      rule.minCount ≤ n ∧ n = groupSize rt rule (membersOf rt filters field items g) := by
  rw [Fires, groupSize]
  apply and_congr_right
  intro _
  cases hwindow : rule.windowField with
  | none => exact Iff.rfl
  | some timeField =>
    have hmeasured : ∀ p ∈ (membersOf rt filters field items g).filterMap
        (instantOf rt timeField), ∀ q ∈ (membersOf rt filters field items g).filterMap
        (instantOf rt timeField), p ≤ q → (beyondWindow rule.windowSeconds (.finite q)
          (.finite p) = true ↔ rule.windowSeconds < q - p) := by
      intro p hp q hq hpq
      obtain ⟨item, hitem, hp⟩ := List.mem_filterMap.1 hp
      obtain ⟨other, hother, hq⟩ := List.mem_filterMap.1 hq
      obtain ⟨hitem, hplace⟩ := mem_membersOf.1 hitem
      obtain ⟨hother, hplace'⟩ := mem_membersOf.1 hother
      exact h.measured timeField hwindow item hitem other hother (by simp [hplace])
        (hplace.trans hplace'.symm) p hp q hq hpq
    obtain ⟨hupper, a, ha⟩ := windowMaxCount_spec (window_pos hwindow).le hmeasured
    simp only [h.times g hwindow]
    constructor
    · rintro ⟨⟨b, hb⟩, hmost⟩
      exact le_antisymm (hb ▸ hupper b) (ha ▸ hmost a)
    · rintro rfl
      exact ⟨⟨a, ha⟩, hupper⟩

theorem NothingRaises.perm (h : NothingRaises rt rule filters field items) (hperm : items'.Perm items) :
    NothingRaises rt rule filters field items' where
  placed item hitem := h.placed item (hperm.subset hitem)
  timed timeField hwindow item hitem := h.timed timeField hwindow item (hperm.subset hitem)

theorem Readable.perm (h : Readable rt rule filters field items) (hperm : items'.Perm items) :
    Readable rt rule filters field items' where
  toNothingRaises := h.toNothingRaises.perm hperm
  finite timeField hwindow item hitem := h.finite timeField hwindow item (hperm.subset hitem)
  measured timeField hwindow item hitem other hother :=
    h.measured timeField hwindow item (hperm.subset hitem) other (hperm.subset hother)

theorem fires_perm (hperm : items'.Perm items) (g : String) (n : Nat) :
    Fires rt rule filters field items' g n ↔ Fires rt rule filters field items g n := by
  have hmembers : (membersOf rt filters field items' g).Perm
      (membersOf rt filters field items g) := hperm.filter _
  rw [Fires, Fires]
  cases rule.windowField with
  | none => simp only [hmembers.length_eq]
  | some timeField =>
    have hcount : ∀ a, inWindow rule.windowSeconds ((membersOf rt filters field items' g).filterMap
        (instantOf rt timeField)) a = inWindow rule.windowSeconds
          ((membersOf rt filters field items g).filterMap (instantOf rt timeField)) a :=
      fun a => (hmembers.filterMap _).countP_eq _
    simp only [hcount]

theorem hitOf_eq_some {g : String} {hit : Hit}
    (h : hitOf rt rule filters field items g = some hit) :
    hit.group = g ∧ rule.minCount ≤ hit.count ∧
      hit.count = groupSize rt rule (membersOf rt filters field items g) := by
  rw [hitOf] at h
  split at h
  · next hmin =>
    obtain rfl := Option.some.inj h
    exact ⟨rfl, hmin, rfl⟩
  · cases h

theorem hits_groups (keys : List String) :
    ((keys.filterMap (hitOf rt rule filters field items)).map Hit.group).Sublist keys := by
  induction keys with
  | nil => exact List.Sublist.slnil
  | cons g keys ih =>
    rw [List.filterMap_cons]
    cases hhit : hitOf rt rule filters field items g with
    | none => exact ih.cons g
    | some hit =>
      simp only [List.map_cons, (hitOf_eq_some hhit).1]
      exact ih.cons_cons g

theorem members_ne_nil_of_fires (hmin : 1 ≤ rule.minCount) {g : String} {n : Nat}
    (h : rule.minCount ≤ n) (hn : n = groupSize rt rule (membersOf rt filters field items g)) :
    membersOf rt filters field items g ≠ [] := by
  intro hnil
  rw [hnil, groupSize] at hn
  have hzero : n = 0 := by
    rw [hn]
    cases rule.windowField <;> rfl
  omega

variable (hconditions : rule.conditions = some (.list filters))
  (hfield : rule.groupByField = some field) (hne : field ≠ "") (hmin : 1 ≤ rule.minCount)
include hconditions hfield hne hmin

theorem NothingRaises.hits (h : NothingRaises rt rule filters field items) :
    evaluateThreshold rt rule items = .ok ((Grouping.keys (itemGroup rt filters field)
      (keptItems rt filters field items)).filterMap (hitOf rt rule filters field items)) := by
  obtain ⟨groups, hgroups, hentries⟩ := collected h.placed
  rw [evaluateThreshold_eq hconditions hfield hne hmin, hgroups]
  change hitsOf rt rule groups.entries = _
  rw [hitsOf_eq, hentries, List.filterMap_map]
  · rfl
  · intro p hp
    rw [hentries] at hp
    obtain ⟨g, -, rfl⟩ := List.mem_map.1 hp
    exact countGroup_eq fun _ hwindow => h.members_timed g hwindow

theorem evaluateThreshold_ok_iff :
    (∃ hits, evaluateThreshold rt rule items = .ok hits) ↔
      NothingRaises rt rule filters field items := by
  constructor
  · rintro ⟨hits, h⟩
    rw [evaluateThreshold_eq hconditions hfield hne hmin] at h
    cases hgroups : collectGroups rt filters field items .empty with
    | error e =>
      rw [hgroups] at h
      cases h
    | ok groups =>
      rw [hgroups] at h
      change hitsOf rt rule groups.entries = _ at h
      have hplaced := placed_of_collectGroups hgroups
      refine ⟨hplaced, ?_⟩
      intro timeField hwindow item hitem hplace
      obtain ⟨g, hg⟩ := Option.ne_none_iff_exists'.1 hplace
      have hmember := mem_membersOf.2 ⟨hitem, hg⟩
      obtain ⟨groups', hgroups', hentries⟩ := collected hplaced
      obtain rfl : groups = groups' := Except.ok.inj (hgroups.symm.trans hgroups')
      have hentry : (g, membersOf rt filters field items g) ∈ groups.entries := by
        rw [hentries]
        exact List.mem_map_of_mem (mem_keys_keptItems g |>.2 (List.ne_nil_of_mem hmember))
      obtain ⟨n, hn⟩ := counted_of_hitsOf h _ hentry
      exact timed_of_countGroup hn hwindow item hmember
  · intro h
    exact ⟨_, h.hits hconditions hfield hne hmin⟩

theorem Readable.correlates (h : Readable rt rule filters field items) :
    ∃ hits, evaluateThreshold rt rule items = .ok hits ∧ (hits.map Hit.group).Nodup ∧
      ∀ g n, (∃ hit ∈ hits, hit.group = g ∧ hit.count = n) ↔
        Fires rt rule filters field items g n := by
  refine ⟨_, h.toNothingRaises.hits hconditions hfield hne hmin,
    (hits_groups _).nodup (Grouping.keys_nodup _), ?_⟩
  intro g n
  rw [h.fires_iff]
  constructor
  · rintro ⟨hit, hmem, rfl, rfl⟩
    obtain ⟨g, -, hhit⟩ := List.mem_filterMap.1 hmem
    obtain ⟨rfl, hcount⟩ := hitOf_eq_some hhit
    exact hcount
  · rintro ⟨hle, rfl⟩
    have hmem := (mem_keys_keptItems g).2 (members_ne_nil_of_fires hmin hle rfl)
    exact ⟨⟨g, _, _⟩, List.mem_filterMap.2 ⟨g, hmem, if_pos hle⟩, rfl, rfl⟩

end Hits

/-- The rule is evaluated without an exception exactly where no item raises; where the times are
besides finite and the rounded distances decide as the exact ones, the hits are the groups that
fire, in any order of the items. -/
theorem evaluateThreshold_correlates (rt : MappingRuntime) (rule : ThresholdRule)
    (filters : List Json) (field : String)
    (hconditions : rule.conditions = some (.list filters))
    (hfield : rule.groupByField = some field) (hne : field ≠ "") (hmin : 1 ≤ rule.minCount)
    (items : List Json) :
    ((∃ hits, evaluateThreshold rt rule items = .ok hits) ↔ NothingRaises rt rule filters field items) ∧
      (Readable rt rule filters field items → Correlates rt rule filters field items) := by
  refine ⟨evaluateThreshold_ok_iff hconditions hfield hne hmin, ?_⟩
  intro h items' hperm
  obtain ⟨hits, hrun, hnodup, hhits⟩ :=
    (h.perm hperm).correlates hconditions hfield hne hmin
  refine ⟨hits, hrun, hnodup, ?_⟩
  intro g n
  rw [hhits, fires_perm hperm]

def loginFilters : List Json := [.obj [("field", .str "kind"), ("value", .str "login")]]

/-- Two logins of a host within a minute. -/
def loginBurst : ThresholdRule where
  groupByField := some "host"
  minCount := 2
  windowSeconds := 60
  timestampField := some "ts"
  conditions := some (.list loginFilters)

def loginAt (ts : Int) : Json :=
  .obj [("host", .str "gw"), ("kind", .str "login"), ("ts", .int ts)]

def logins : List Json := [loginAt 100, loginAt 0, loginAt 60]

theorem logins_readable :
    Readable MappingRuntime.ascii loginBurst loginFilters "host" logins := by
  have hfield : loginBurst.windowField = some "ts" := by decide
  have hplaced : ∀ item ∈ logins,
      groupOf MappingRuntime.ascii loginFilters "host" item = .ok (some "gw") := by
    decide +kernel
  have hread : ∀ item ∈ logins, readTime MappingRuntime.ascii "ts" item =
      .ok ((instantOf MappingRuntime.ascii "ts" item).map .finite) := by
    decide +kernel
  have hmeasured : ∀ item ∈ logins, ∀ other ∈ logins,
      ∀ p ∈ instantOf MappingRuntime.ascii "ts" item,
      ∀ q ∈ instantOf MappingRuntime.ascii "ts" other, p ≤ q →
        (beyondWindow 60 (.finite q) (.finite p) = true ↔ ((60 : Int) : Rat) < q - p) := by
    decide +kernel
  constructor
  · constructor
    · intro item hitem
      exact ⟨_, hplaced item hitem⟩
    · intro timeField hwindow item hitem _
      obtain rfl := Option.some.inj (hfield.symm.trans hwindow)
      exact ⟨_, hread item hitem⟩
  · intro timeField hwindow item hitem _ x hx
    obtain rfl := Option.some.inj (hfield.symm.trans hwindow)
    rw [hread item hitem] at hx
    obtain ⟨q, -, rfl⟩ := Option.map_eq_some_iff.1 (Except.ok.inj hx)
    exact ⟨q, rfl⟩
  · intro timeField hwindow item hitem other hother _ _
    obtain rfl := Option.some.inj (hfield.symm.trans hwindow)
    exact hmeasured item hitem other hother

theorem evaluateThreshold_correlates_logins :
    evaluateThreshold MappingRuntime.ascii loginBurst logins = .ok [⟨"gw", 2, loginAt 100⟩] ∧
      Correlates MappingRuntime.ascii loginBurst loginFilters "host" logins :=
  ⟨by decide +kernel,
    (evaluateThreshold_correlates MappingRuntime.ascii loginBurst loginFilters "host" rfl rfl
      (by decide) (by decide) logins).2 logins_readable⟩

/-- `float` has no value for the time of the event, and its exception is not caught. -/
theorem long_time_raises :
    ¬ Correlates MappingRuntime.ascii loginBurst loginFilters "host" [loginAt (10 ^ 400)] := by
  intro h
  obtain ⟨hits, hrun, -⟩ := h _ (List.Perm.refl _)
  have hraise : evaluateThreshold MappingRuntime.ascii loginBurst [loginAt (10 ^ 400)] =
      .error .overflowError := by decide +kernel
  rw [hraise] at hrun
  cases hrun

end CentralOps
