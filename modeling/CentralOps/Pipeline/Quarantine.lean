import CentralOps.Lib.JsonAscii
import CentralOps.Pipeline.CaptureHonesty

namespace CentralOps
set_option autoImplicit true

/-- `float.__repr__`: a number that no other float and no integer has. -/
structure FloatRepr where
  text : PyFloat → List Char
  number : ∀ q, JsonText.IsNumber (text (.finite q))
  injective : ∀ p q, text (.finite p) = text (.finite q) → p = q
  apart : ∀ q (n : Int), text (.finite q) ≠ (toString n).toList

section Dump
variable (lib : FloatRepr)

mutual
/-- `json.dumps` with compact separators. -/
def Json.dumps : Json → List Char
  | .null => "null".toList
  | .bool b => if b then "true".toList else "false".toList
  | .int n => (toString n).toList
  | .float x => lib.text x
  | .str s => JsonText.quoteAscii s.toList
  | .list xs => '[' :: List.intercalate [','] (itemDumps xs) ++ [']']
  | .obj o => '\x7b' :: List.intercalate [','] (memberDumps o) ++ ['\x7d']

def itemDumps : List Json → List (List Char)
  | [] => []
  | x :: xs => x.dumps :: itemDumps xs

def memberDumps : Obj → List (List Char)
  | [] => []
  | (k, v) :: o => (JsonText.quoteAscii k.toList ++ ':' :: v.dumps) :: memberDumps o
end

theorem itemDumps_eq (xs : List Json) : itemDumps lib xs = xs.map (Json.dumps lib) := by
  induction xs with
  | nil => rfl
  | cons x xs ih => rw [itemDumps, ih, List.map_cons]

def memberDump (p : String × Json) : List Char :=
  JsonText.quoteAscii p.1.toList ++ ':' :: p.2.dumps lib

theorem memberDumps_map (o : Obj) : memberDumps lib o = o.map (memberDump lib) := by
  induction o with
  | nil => rfl
  | cons p o ih => rw [memberDumps, ih, List.map_cons, memberDump]

theorem memberDumps_eq (o : Obj) : memberDumps lib o =
    (o.map (fun p => (JsonText.quoteAscii p.1.toList, p.2.dumps lib))).map
      (fun m => m.1 ++ ':' :: m.2) := by
  rw [memberDumps_map, List.map_map]
  rfl

mutual
theorem dumps_valid : (x : Json) → x.Standard → JsonText.IsValue (x.dumps lib)
  | .null, _ => .null
  | .bool true, _ => .true
  | .bool false, _ => .false
  | .int n, _ => .number (JsonText.isNumber_int n)
  | .float (.finite q), _ => .number (lib.number q)
  | .str s, _ => .string (JsonText.isString_quoteAscii s.toList)
  | .list xs, h => .array (by rw [itemDumps_eq]; exact itemDumps_valid xs h)
  | .obj o, h => by
    rw [Json.dumps, memberDumps_eq]
    apply JsonText.IsValue.object
    · intro m hm
      obtain ⟨p, -, rfl⟩ := List.mem_map.1 hm
      exact JsonText.isString_quoteAscii p.1.toList
    · intro m hm
      obtain ⟨p, hp, rfl⟩ := List.mem_map.1 hm
      exact memberDumps_valid o h p hp

theorem itemDumps_valid : (xs : List Json) → StandardItems xs →
    ∀ v ∈ xs.map (Json.dumps lib), JsonText.IsValue v
  | [], _ => by simp
  | x :: xs, h => by
    intro v hv
    rcases List.mem_cons.1 hv with rfl | hv
    · exact dumps_valid x h.1
    · exact itemDumps_valid xs h.2 v hv

theorem memberDumps_valid : (o : Obj) → StandardFields o →
    ∀ p ∈ o, JsonText.IsValue (p.2.dumps lib)
  | [], _ => by simp
  | (k, x) :: o, h => by
    intro p hp
    rcases List.mem_cons.1 hp with rfl | hp
    · exact dumps_valid x h.1
    · exact memberDumps_valid o h.2 p hp
end

end Dump

section Unambiguous
variable {lib : FloatRepr}

def Json.IsAtom : Json → Prop
  | .str _ | .list _ | .obj _ => False
  | _ => True

def words : List (List Char) := ["null".toList, "true".toList, "false".toList]

theorem word_ne_number {w cs : List Char} (hw : w ∈ words) (h : JsonText.IsNumber cs) : w ≠ cs := by
  have hletter : ∀ w ∈ words,
      w.any (fun c => !c.isDigit && decide (c ∉ ['-', '+', '.', 'e', 'E'])) = true := by decide
  rintro rfl
  obtain ⟨c, hc, htest⟩ := List.any_eq_true.1 (hletter w hw)
  rw [Bool.and_eq_true, Bool.not_eq_true', decide_eq_true_eq] at htest
  obtain ⟨hdigit, hsign⟩ := htest
  rcases JsonText.number_chars h c hc with hd | hs
  · rw [hd] at hdigit
    cases hdigit
  · exact hsign hs

theorem atom_text {x : Json} (hx : x.Standard) (hatom : x.IsAtom) :
    x.dumps lib ∈ words ∨ JsonText.IsNumber (x.dumps lib) := by
  cases x with
  | null => exact .inl List.mem_cons_self
  | bool b =>
    left
    cases b with
    | true => exact List.mem_cons_of_mem _ List.mem_cons_self
    | false => exact List.mem_cons_of_mem _ (List.mem_cons_of_mem _ List.mem_cons_self)
  | int n => exact .inr (JsonText.isNumber_int n)
  | float x =>
    cases x with
    | finite q => exact .inr (lib.number q)
    | inf _ => exact absurd hx id
    | nan => exact absurd hx id
  | str s => exact absurd hatom id
  | list xs => exact absurd hatom id
  | obj o => exact absurd hatom id

/-- Atoms hold neither an end nor the first character of the others. -/
theorem atom_chars (lib : FloatRepr) {x : Json} (hx : x.Standard) (hatom : x.IsAtom) :
    x.dumps lib ≠ [] ∧ ∀ c ∈ x.dumps lib, JsonText.isEnd c = false ∧ c ∉ ['"', '[', '\x7b'] := by
  have hword : ∀ w ∈ words, w ≠ [] ∧
      w.all (fun c => decide (JsonText.isEnd c = false ∧ c ∉ ['"', '[', '\x7b'])) = true := by
    decide
  have hothers : ∀ c ∈ [',', ']', '\x7d', '"', '[', '\x7b'], c.isDigit = false ∧
      c ∉ ['-', '+', '.', 'e', 'E'] := by
    simp only [List.forall_mem_cons, List.not_mem_nil, false_imp_iff, implies_true, and_true]
    decide
  rcases atom_text hx hatom with htext | htext
  · obtain ⟨hne, hall⟩ := hword _ htext
    exact ⟨hne, fun c hc => of_decide_eq_true (List.all_eq_true.1 hall c hc)⟩
  · refine ⟨JsonText.number_ne_nil htext, fun c hc => ?_⟩
    have hnot : c ∉ [',', ']', '\x7d', '"', '[', '\x7b'] := by
      intro hmem
      obtain ⟨hdigit, hsign⟩ := hothers c hmem
      rcases JsonText.number_chars htext c hc with hd | hs
      · rw [hd] at hdigit
        cases hdigit
      · exact hsign hs
    simp only [List.mem_cons, List.not_mem_nil, or_false, not_or] at hnot
    simp [JsonText.isEnd, hnot]

theorem atom_eq {x y : Json} (hx : x.Standard) (hy : y.Standard) (hxa : x.IsAtom) (hya : y.IsAtom)
    (h : x.dumps lib = y.dumps lib) : x = y := by
  have hnull : ∀ b : Bool, "null".toList ≠ (if b then "true".toList else "false".toList) := by
    decide
  have hbool : ∀ b c : Bool, (if b then "true".toList else "false".toList) =
      (if c then "true".toList else "false".toList) → b = c := by decide
  have hmem : "null".toList ∈ words := List.mem_cons_self
  have hmem' : ∀ b : Bool, (if b then "true".toList else "false".toList) ∈ words := by decide
  cases x with
  | null =>
    cases y with
    | null => rfl
    | bool b => exact absurd h (hnull b)
    | int n => exact absurd h (word_ne_number hmem (JsonText.isNumber_int n))
    | float y =>
      cases y with
      | finite q => exact absurd h (word_ne_number hmem (lib.number q))
      | inf _ => exact absurd hy id
      | nan => exact absurd hy id
    | _ => exact absurd hya id
  | bool b =>
    cases y with
    | null => exact absurd h.symm (hnull b)
    | bool c => rw [hbool b c h]
    | int n => exact absurd h (word_ne_number (hmem' b) (JsonText.isNumber_int n))
    | float y =>
      cases y with
      | finite q => exact absurd h (word_ne_number (hmem' b) (lib.number q))
      | inf _ => exact absurd hy id
      | nan => exact absurd hy id
    | _ => exact absurd hya id
  | int m =>
    cases y with
    | null => exact absurd h.symm (word_ne_number hmem (JsonText.isNumber_int m))
    | bool c => exact absurd h.symm (word_ne_number (hmem' c) (JsonText.isNumber_int m))
    | int n => rw [JsonText.int_inj h]
    | float y =>
      cases y with
      | finite q => exact absurd h.symm (lib.apart q m)
      | inf _ => exact absurd hy id
      | nan => exact absurd hy id
    | _ => exact absurd hya id
  | float x =>
    cases x with
    | finite p =>
      cases y with
      | null => exact absurd h.symm (word_ne_number hmem (lib.number p))
      | bool c => exact absurd h.symm (word_ne_number (hmem' c) (lib.number p))
      | int n => exact absurd h (lib.apart p n)
      | float y =>
        cases y with
        | finite q => rw [lib.injective p q h]
        | inf _ => exact absurd hy id
        | nan => exact absurd hy id
      | _ => exact absurd hya id
    | inf _ => exact absurd hx id
    | nan => exact absurd hx id
  | _ => exact absurd hxa id

/-- What is not an atom begins with a quote or a bracket of its own. -/
theorem other_start (lib : FloatRepr) (x : Json) (hatom : ¬ x.IsAtom) :
    ∃ c cs, x.dumps lib = c :: cs ∧ c ∈ ['"', '[', '\x7b'] := by
  cases x with
  | str s => exact ⟨_, _, rfl, by decide⟩
  | list xs => exact ⟨_, _, rfl, by decide⟩
  | obj o => exact ⟨_, _, rfl, by decide⟩
  | _ => exact absurd trivial hatom

theorem dumps_start {x : Json} (hx : x.Standard) :
    ∃ c cs, x.dumps lib = c :: cs ∧ JsonText.isEnd c = false := by
  by_cases hatom : x.IsAtom
  · obtain ⟨hne, hchars⟩ := atom_chars lib hx hatom
    cases htext : x.dumps lib with
    | nil => exact absurd htext hne
    | cons c cs => exact ⟨c, cs, rfl, (hchars c (by simp [htext])).1⟩
  · obtain ⟨c, cs, htext, hc⟩ := other_start lib x hatom
    have hstart : ∀ c ∈ ['"', '[', '\x7b'], JsonText.isEnd c = false := by
      simp only [List.forall_mem_cons, List.not_mem_nil, false_imp_iff, implies_true, and_true]
      decide
    exact ⟨c, cs, htext, hstart c hc⟩

def Unambiguous (lib : FloatRepr) (x : Json) : Prop :=
  x.Standard → ∀ y r r', y.Standard → JsonText.Follows r → JsonText.Follows r' →
    x.dumps lib ++ r = y.dumps lib ++ r' → x = y ∧ r = r'

/-- No text begins as an atom and as something else. -/
theorem atom_other {x y : Json} (hx : x.Standard) (hatom : x.IsAtom) (hya : ¬ y.IsAtom) :
    x.dumps lib ++ r ≠ y.dumps lib ++ r' := by
  intro h
  obtain ⟨hne, hchars⟩ := atom_chars lib hx hatom
  obtain ⟨c, cs, htext, hc⟩ := other_start lib y hya
  cases hxt : x.dumps lib with
  | nil => exact hne hxt
  | cons d ds =>
    rw [hxt, htext] at h
    rw [(List.cons.inj h).1.symm] at hc
    exact (hchars d (by simp [hxt])).2 hc

theorem atom_unambiguous {x : Json} (hatom : x.IsAtom) : Unambiguous lib x := by
  intro hx y r r' hy hr hr' h
  by_cases hya : y.IsAtom
  · obtain ⟨htext, hrest⟩ := JsonText.atom_inj (fun c hc => ((atom_chars lib hx hatom).2 c hc).1)
      (fun c hc => ((atom_chars lib hy hya).2 c hc).1) hr hr' h
    exact ⟨atom_eq hx hy hatom hya htext, hrest⟩
  · exact absurd h (atom_other hx hatom hya)

theorem str_unambiguous (s : String) : Unambiguous lib (.str s) := by
  intro _ y r r' hy _ _ h
  by_cases hya : y.IsAtom
  · exact (atom_other hy hya id h.symm).elim
  · cases y with
    | str t =>
      obtain ⟨hchars, hrest⟩ := JsonText.quoteAscii_inj h
      rw [String.toList_injective hchars]
      exact ⟨rfl, hrest⟩
    | list ys => exact absurd (List.cons.inj h).1 (by decide)
    | obj o => exact absurd (List.cons.inj h).1 (by decide)
    | _ => exact absurd trivial hya

theorem list_unambiguous {xs : List Json} (ih : ∀ x ∈ xs, Unambiguous lib x) :
    Unambiguous lib (.list xs) := by
  intro hx y r r' hy _ _ h
  by_cases hya : y.IsAtom
  · exact (atom_other hy hya id h.symm).elim
  · cases y with
    | str t => exact absurd (List.cons.inj h).1 (by decide)
    | list ys =>
      rw [Json.Standard, standardItems_iff] at hx hy
      simp only [Json.dumps, itemDumps_eq, List.cons_append, List.append_assoc] at h
      obtain ⟨rfl, hrest⟩ := JsonText.intercalate_inj rfl (by decide)
        (fun y hmem => dumps_start (hy y hmem)) (fun x hmem => dumps_start (hx x hmem))
        (fun x hmem y hmem' r r' hr hr' heq =>
          ih x hmem (hx x hmem) y r r' (hy y hmem') hr hr' heq)
        (List.cons.inj h).2
      exact ⟨rfl, hrest⟩
    | obj o => exact absurd (List.cons.inj h).1 (by decide)
    | _ => exact absurd trivial hya

theorem obj_unambiguous {o : Obj} (ih : ∀ p ∈ o, Unambiguous lib p.2) :
    Unambiguous lib (.obj o) := by
  intro hx y r r' hy _ _ h
  by_cases hya : y.IsAtom
  · exact (atom_other hy hya id h.symm).elim
  · cases y with
    | str t => exact absurd (List.cons.inj h).1 (by decide)
    | list ys => exact absurd (List.cons.inj h).1 (by decide)
    | obj o' =>
      rw [Json.Standard, standardFields_iff] at hx hy
      have hstart : ∀ p : String × Json, ∃ c cs, memberDump lib p = c :: cs ∧
          JsonText.isEnd c = false := fun p => ⟨_, _, rfl, rfl⟩
      simp only [Json.dumps, memberDumps_map, List.cons_append, List.append_assoc] at h
      obtain ⟨rfl, hrest⟩ := JsonText.intercalate_inj rfl (by decide) (fun p _ => hstart p)
        (fun p _ => hstart p) (fun p hmem q hmem' r r' hr hr' heq => by
          rw [memberDump, memberDump, List.append_assoc, List.append_assoc] at heq
          obtain ⟨hkey, hvalue⟩ := JsonText.quoteAscii_inj heq
          obtain ⟨hsame, hends⟩ := ih p hmem (hx p hmem) q.2 r r' (hy q hmem') hr hr'
            (List.cons.inj hvalue).2
          exact ⟨Prod.ext (String.toList_injective hkey) hsame, hends⟩)
        (List.cons.inj h).2
      exact ⟨rfl, hrest⟩
    | _ => exact absurd trivial hya

mutual
theorem dumps_unambiguous : (x : Json) → Unambiguous lib x
  | .null => atom_unambiguous trivial
  | .bool _ => atom_unambiguous trivial
  | .int _ => atom_unambiguous trivial
  | .float _ => atom_unambiguous trivial
  | .str s => str_unambiguous s
  | .list xs => list_unambiguous (items_unambiguous xs)
  | .obj o => obj_unambiguous (fields_unambiguous o)

theorem items_unambiguous : (xs : List Json) → ∀ x ∈ xs, Unambiguous lib x
  | [] => by simp
  | x :: xs => List.forall_mem_cons.2 ⟨dumps_unambiguous x, items_unambiguous xs⟩

theorem fields_unambiguous : (o : Obj) → ∀ p ∈ o, Unambiguous lib p.2
  | [] => by simp
  | (_, x) :: o => List.forall_mem_cons.2 ⟨dumps_unambiguous x, fields_unambiguous o⟩
end

/-- Two documents never have one text. -/
theorem dumps_inj {x y : Json} (hx : x.Standard) (hy : y.Standard)
    (h : x.dumps lib = y.dumps lib) : x = y := by
  have hnone : JsonText.Follows [] := by simp [JsonText.Follows]
  exact (dumps_unambiguous x hx y [] [] hy hnone hnone (by rw [h])).1

end Unambiguous

section Serialize
variable (lib : FloatRepr)

/-- `_REDUCTION_PASSES`. -/
def reductionPasses : List (Nat × Nat) := [(8192, 200), (2048, 50), (512, 20), (256, 5)]

/-- `{**markers, **reduced}`. -/
def withMarkers (markers reduced : Obj) : Obj :=
  reduced.foldl (fun acc p => Assoc.set p.1 p.2 acc) markers

/-- What the last reduction keeps of the top level. -/
def isShortScalar : Json → Bool
  | .str s => decide (s.length ≤ 512)
  | .list _ | .obj _ => false
  | _ => true

def markedPass (raw : Obj) (caps : Nat × Nat) : Obj :=
  withMarkers [("_truncated", .bool true)] (reduceFields caps.1 caps.2 raw)

def markedScalars (raw : Obj) : Obj :=
  withMarkers [("_truncated", .bool true), ("_reduced", .str "scalars_only")]
    (raw.filter (fun p => isShortScalar p.2))

def oversized : Obj := [("_truncated", .bool true), ("_reduced", .str "oversized")]

def fitsLimit (limit : Nat) (o : Obj) : Bool := decide (((Json.obj o).dumps lib).length ≤ limit)

def reducedRaw (raw : Obj) (limit : Nat) : Obj :=
  ((reductionPasses.map (markedPass raw) ++ [markedScalars raw]).find?
    (fitsLimit lib limit)).getD oversized

/-- `_serialize_raw`. -/
def serializeRaw (raw : Obj) (limit : Nat) : List Char :=
  if fitsLimit lib limit raw then (Json.obj raw).dumps lib
  else (Json.obj (reducedRaw lib raw limit)).dumps lib

/-- A text is that of a document. -/
def ReadsAs (cs : List Char) (v : Json) : Prop := v.Standard ∧ v.dumps lib = cs

end Serialize

/-- What the reduction leaves of a value: scalars as they are, of a string at least its start. -/
def KeptAs : Json → Json → Prop
  | .list _, _ | .obj _, _ => True
  | .str s, x => x = .str s ∨ ∃ p n, p <+: s.toList ∧
      x = .str (String.ofList p ++ "…[+" ++ toString (n : Nat) ++ " chars]")
  | y, x => x = y

/-- The stored text of an event. -/
structure StoredRaw (lib : FloatRepr) (raw : Obj) (limit : Nat) (out : List Char) : Prop where
  bounded : out.length ≤ limit
  valid : JsonText.IsValue out
  reads : ∃ o, ReadsAs lib out (.obj o)
  faithful : ReadsAs lib out (.obj raw) ↔ ((Json.obj raw).dumps lib).length ≤ limit
  marked : limit < ((Json.obj raw).dumps lib).length → ∀ o, ReadsAs lib out (.obj o) →
    o.lookup "_truncated" = some (.bool true)
  kept : limit < ((Json.obj raw).dumps lib).length → ∀ o, ReadsAs lib out (.obj o) →
    ∀ k x, (k, x) ∈ o → k ≠ "_truncated" → k ≠ "_reduced" → ∃ y, (k, y) ∈ raw ∧ KeptAs y x

/-- The event fits; or it has no marker of its own but the truth; or no pass fits, and its marker is
not among the scalars that the last reduction keeps, or these do not fit either. -/
def MarkerStands (lib : FloatRepr) (raw : Obj) (limit : Nat) : Prop :=
  fitsLimit lib limit raw = true ∨
    (∀ v, raw.lookup "_truncated" = some v → v = .bool true) ∨
    (∀ caps ∈ reductionPasses, fitsLimit lib limit (markedPass raw caps) = false) ∧
      ((∀ v, raw.lookup "_truncated" = some v → isShortScalar v = false) ∨
        fitsLimit lib limit (markedScalars raw) = false)

section Marked

theorem mem_withMarkers {markers reduced : Obj} {p : String × Json}
    (h : p ∈ withMarkers markers reduced) : p ∈ reduced ∨ p ∈ markers := by
  induction reduced generalizing markers with
  | nil => exact .inr h
  | cons q reduced ih =>
    rw [withMarkers, List.foldl_cons] at h
    rcases ih h with h | h
    · exact .inl (List.mem_cons_of_mem _ h)
    · rcases Assoc.mem_of_mem_set h with rfl | h
      · exact .inl List.mem_cons_self
      · exact .inr h

theorem lookup_absent {o : Obj} (h : k ∉ o.map Prod.fst) : o.lookup k = none := by
  rw [List.lookup_eq_none_iff]
  intro p hp
  rw [bne_iff_ne]
  rintro rfl
  exact h (List.mem_map_of_mem hp)

theorem lookup_filter_value (q : Json → Bool) {o : Obj} (hnodup : (o.map Prod.fst).Nodup)
    (k : String) : (o.filter (fun p => q p.2)).lookup k = (o.lookup k).filter q := by
  induction o with
  | nil => rfl
  | cons p o ih =>
    obtain ⟨hnew, hnodup⟩ := List.nodup_cons.1 hnodup
    rw [List.filter_cons, Assoc.lookup_cons_eq]
    by_cases hk : p.1 = k
    · subst hk
      rw [if_pos rfl]
      split
      · rw [Assoc.lookup_cons_eq, if_pos rfl, Option.filter_some_pos (by assumption)]
      · rw [ih hnodup, lookup_absent hnew,
          Option.filter_some_neg (eq_false_of_ne_true (by assumption))]
        rfl
    · rw [if_neg hk]
      split
      · rw [Assoc.lookup_cons_eq, if_neg hk, ih hnodup]
      · exact ih hnodup

theorem lookup_withMarkers {markers reduced : Obj} (hnodup : (reduced.map Prod.fst).Nodup)
    (k : String) :
    (withMarkers markers reduced).lookup k = (reduced.lookup k).or (markers.lookup k) := by
  induction reduced generalizing markers with
  | nil => rfl
  | cons q reduced ih =>
    obtain ⟨hnew, hnodup⟩ := List.nodup_cons.1 hnodup
    rw [withMarkers, List.foldl_cons, ← withMarkers, ih hnodup, Assoc.lookup_cons_eq]
    by_cases hq : q.1 = k
    · subst hq
      rw [if_pos rfl, Assoc.lookup_set_self, Option.some_or, lookup_absent hnew, Option.none_or]
    · rw [if_neg hq, Assoc.lookup_set_ne (Ne.symm hq)]

theorem keys_reduceFields (strCap arrayCap : Nat) (o : Obj) :
    (reduceFields strCap arrayCap o).map Prod.fst = o.map Prod.fst := by
  induction o with
  | nil => rfl
  | cons p o ih => rw [reduceFields, List.map_cons, List.map_cons, ih]

theorem mem_reduceFields {o : Obj} (h : (k, x) ∈ reduceFields strCap arrayCap o) :
    ∃ y, (k, y) ∈ o ∧ x = reduceStructure strCap arrayCap y := by
  induction o with
  | nil => cases h
  | cons p o ih =>
    rw [reduceFields] at h
    rcases List.mem_cons.1 h with heq | h
    · cases heq
      exact ⟨p.2, List.mem_cons_self, rfl⟩
    · obtain ⟨y, hy, hx⟩ := ih h
      exact ⟨y, List.mem_cons_of_mem _ hy, hx⟩

theorem keptAs_self (x : Json) : KeptAs x x := by
  cases x with
  | list xs => trivial
  | obj o => trivial
  | str s => exact .inl rfl
  | _ => exact rfl

theorem keptAs_reduceStructure (strCap arrayCap : Nat) (x : Json) :
    KeptAs x (reduceStructure strCap arrayCap x) := by
  cases x with
  | list xs => trivial
  | obj o => trivial
  | str s =>
    rw [reduceStructure, clippedString]
    by_cases h : s.length > strCap
    · rw [if_pos h]
      exact .inr ⟨_, _, List.take_prefix strCap s.toList, rfl⟩
    · rw [if_neg h]
      exact .inl rfl
  | _ => exact rfl

theorem reduceStructure_eq_true (strCap arrayCap : Nat) (x : Json) :
    reduceStructure strCap arrayCap x = .bool true ↔ x = .bool true := by
  cases x <;> simp [reduceStructure]

theorem lookup_markedPass {raw : Obj} (hnodup : (raw.map Prod.fst).Nodup) (caps : Nat × Nat) :
    (markedPass raw caps).lookup "_truncated" = some (.bool true) ↔
      ∀ v, raw.lookup "_truncated" = some v → v = .bool true := by
  have hkeys := keys_reduceFields caps.1 caps.2 raw
  rw [markedPass, lookup_withMarkers (by rwa [hkeys]), lookup_reduceFields]
  cases raw.lookup "_truncated" with
  | none => simp [Assoc.lookup_cons_eq]
  | some v => simp [reduceStructure_eq_true]

theorem lookup_markedScalars {raw : Obj} (hnodup : (raw.map Prod.fst).Nodup) :
    (markedScalars raw).lookup "_truncated" = some (.bool true) ↔
      ∀ v, raw.lookup "_truncated" = some v → v = .bool true ∨ isShortScalar v = false := by
  have hsub := (List.filter_sublist (p := fun p => isShortScalar p.2) (l := raw)).map Prod.fst
  rw [markedScalars, lookup_withMarkers (hnodup.sublist hsub), lookup_filter_value _ hnodup]
  cases raw.lookup "_truncated" with
  | none => simp [Assoc.lookup_cons_eq]
  | some v =>
    cases hshort : isShortScalar v with
    | false => simp [Option.filter, hshort, Assoc.lookup_cons_eq]
    | true => simp [Option.filter, hshort]

end Marked

section Stored
variable {lib : FloatRepr} {raw : Obj} {limit : Nat}

def storedRaw (lib : FloatRepr) (raw : Obj) (limit : Nat) : Obj :=
  if fitsLimit lib limit raw then raw else reducedRaw lib raw limit

theorem serializeRaw_eq :
    serializeRaw lib raw limit = (Json.obj (storedRaw lib raw limit)).dumps lib := by
  rw [serializeRaw, storedRaw]
  split <;> rfl

theorem fitsLimit_oversized (hlimit : 50 ≤ limit) : fitsLimit lib limit oversized = true := by
  have hsize : ((Json.obj oversized).dumps lib).length ≤ 50 := by
    change ("\x7b\"_truncated\":true,\"_reduced\":\"oversized\"\x7d".toList).length ≤ 50
    decide
  rw [fitsLimit, decide_eq_true_eq]
  exact hsize.trans hlimit

theorem reducedRaw_cases (lib : FloatRepr) (raw : Obj) (limit : Nat) :
    (∃ caps ∈ reductionPasses, fitsLimit lib limit (markedPass raw caps) = true ∧
      reducedRaw lib raw limit = markedPass raw caps) ∨
    (∀ caps ∈ reductionPasses, fitsLimit lib limit (markedPass raw caps) = false) ∧
      (fitsLimit lib limit (markedScalars raw) = true ∧
          reducedRaw lib raw limit = markedScalars raw ∨
        fitsLimit lib limit (markedScalars raw) = false ∧
          reducedRaw lib raw limit = oversized) := by
  rw [reducedRaw, List.find?_append]
  cases hpass : (reductionPasses.map (markedPass raw)).find? (fitsLimit lib limit) with
  | some o =>
    obtain ⟨caps, hcaps, rfl⟩ := List.mem_map.1 (List.mem_of_find?_eq_some hpass)
    exact .inl ⟨caps, hcaps, List.find?_some hpass, rfl⟩
  | none =>
    right
    have hnone : ∀ caps ∈ reductionPasses, fitsLimit lib limit (markedPass raw caps) = false := by
      intro caps hcaps
      have h := List.find?_eq_none.1 hpass _ (List.mem_map_of_mem hcaps)
      exact eq_false_of_ne_true h
    apply And.intro hnone
    cases hscalars : fitsLimit lib limit (markedScalars raw) with
    | true => exact .inl ⟨rfl, by simp [hscalars]⟩
    | false => exact .inr ⟨rfl, by simp [hscalars]⟩

theorem fits_storedRaw (lib : FloatRepr) (raw : Obj) (hlimit : 50 ≤ limit) :
    fitsLimit lib limit (storedRaw lib raw limit) = true := by
  rw [storedRaw]
  split
  · assumption
  · rcases reducedRaw_cases lib raw limit with ⟨caps, -, hfits, heq⟩ | ⟨-, ⟨hfits, heq⟩ | ⟨-, heq⟩⟩
    · rw [heq, hfits]
    · rw [heq, hfits]
    · rw [heq, fitsLimit_oversized hlimit]

/-- What stands in the reduced event is a marker, or is left of something in the event. -/
theorem mem_reducedRaw (h : (k, x) ∈ reducedRaw lib raw limit) :
    (k, x) ∈ [("_truncated", .bool true), ("_reduced", .str "scalars_only"),
        ("_reduced", .str "oversized")] ∨
      ∃ y, (k, y) ∈ raw ∧ KeptAs y x ∧ (y.Standard → x.Standard) := by
  rcases reducedRaw_cases lib raw limit with ⟨caps, -, -, heq⟩ | ⟨-, ⟨-, heq⟩ | ⟨-, heq⟩⟩
  · rw [heq, markedPass] at h
    rcases mem_withMarkers h with h | h
    · obtain ⟨y, hy, rfl⟩ := mem_reduceFields h
      exact .inr ⟨y, hy, keptAs_reduceStructure caps.1 caps.2 y,
        reduceStructure_standard caps.1 caps.2 y⟩
    · rw [List.mem_singleton.1 h]
      exact .inl List.mem_cons_self
  · rw [heq, markedScalars] at h
    rcases mem_withMarkers h with h | h
    · exact .inr ⟨x, (List.mem_filter.1 h).1, keptAs_self x, id⟩
    · left
      rcases List.mem_cons.1 h with h | h
      · rw [h]
        exact List.mem_cons_self
      · rw [List.mem_singleton.1 h]
        exact List.mem_cons_of_mem _ List.mem_cons_self
  · left
    rw [heq, oversized] at h
    rcases List.mem_cons.1 h with h | h
    · rw [h]
      exact List.mem_cons_self
    · rw [List.mem_singleton.1 h]
      exact List.mem_cons_of_mem _ (List.mem_cons_of_mem _ List.mem_cons_self)

theorem standard_storedRaw (hraw : (Json.obj raw).Standard) :
    (Json.obj (storedRaw lib raw limit)).Standard := by
  rw [storedRaw]
  split
  · exact hraw
  · rw [Json.Standard, standardFields_iff] at hraw ⊢
    have hmarkers : ∀ p ∈ [("_truncated", Json.bool true), ("_reduced", .str "scalars_only"),
        ("_reduced", .str "oversized")], p.2.Standard := by simp [Json.Standard]
    rintro ⟨k, x⟩ hp
    rcases mem_reducedRaw hp with hmark | ⟨y, hy, -, hstd⟩
    · exact hmarkers _ hmark
    · exact hstd (hraw _ hy)

theorem readsAs_serializeRaw (lib : FloatRepr) (limit : Nat) (hraw : (Json.obj raw).Standard)
    (o : Obj) :
    ReadsAs lib (serializeRaw lib raw limit) (.obj o) ↔ o = storedRaw lib raw limit := by
  rw [ReadsAs, serializeRaw_eq]
  constructor
  · rintro ⟨ho, htext⟩
    exact Json.obj.inj (dumps_inj ho (standard_storedRaw hraw) htext)
  · rintro rfl
    exact ⟨standard_storedRaw hraw, rfl⟩

theorem marked_iff (hnodup : (raw.map Prod.fst).Nodup) (hfits : ¬ fitsLimit lib limit raw = true) :
    (storedRaw lib raw limit).lookup "_truncated" = some (.bool true) ↔
      MarkerStands lib raw limit := by
  rw [storedRaw, if_neg hfits, MarkerStands, or_iff_right hfits]
  rcases reducedRaw_cases lib raw limit with ⟨caps, hcaps, hfit, heq⟩ | ⟨hnone, hlast⟩
  · have hsome : ¬ ∀ caps ∈ reductionPasses, fitsLimit lib limit (markedPass raw caps) = false := by
      intro h
      rw [h caps hcaps] at hfit
      cases hfit
    rw [heq, lookup_markedPass hnodup]
    tauto
  · rcases hlast with ⟨hfit, heq⟩ | ⟨hfit, heq⟩
    · rw [heq, lookup_markedScalars hnodup, hfit]
      cases hlookup : raw.lookup "_truncated" with
      | none => simp
      | some v =>
        simp
        tauto
    · rw [heq]
      exact ⟨fun _ => .inr ⟨hnone, .inr hfit⟩, fun _ => rfl⟩

/-- The stored text is honest of an event exactly where its marker stands. -/
theorem serializeRaw_stored_iff (lib : FloatRepr) {raw : Obj} {limit : Nat} (hlimit : 50 ≤ limit)
    (hraw : (Json.obj raw).Standard) (hnodup : (raw.map Prod.fst).Nodup) :
    StoredRaw lib raw limit (serializeRaw lib raw limit) ↔ MarkerStands lib raw limit := by
  have hreads := readsAs_serializeRaw lib limit hraw
  have hbound := fits_storedRaw lib raw hlimit
  rw [fitsLimit, decide_eq_true_eq] at hbound
  by_cases hfits : fitsLimit lib limit raw = true
  · have hle := hfits
    rw [fitsLimit, decide_eq_true_eq] at hle
    have hsame : storedRaw lib raw limit = raw := if_pos hfits
    constructor
    · intro _
      exact .inl hfits
    · intro _
      apply StoredRaw.mk
      · rw [serializeRaw_eq]
        exact hbound
      · rw [serializeRaw_eq]
        exact dumps_valid lib _ (standard_storedRaw hraw)
      · exact ⟨_, (hreads _).2 rfl⟩
      · rw [hreads, hsame]
        exact ⟨fun _ => hle, fun _ => rfl⟩
      · exact fun hlt => absurd hle (Nat.not_le.2 hlt)
      · exact fun hlt => absurd hle (Nat.not_le.2 hlt)
  · have hlt := hfits
    rw [fitsLimit, decide_eq_true_eq, Nat.not_le] at hlt
    have hreduced : storedRaw lib raw limit = reducedRaw lib raw limit := if_neg hfits
    constructor
    · intro h
      exact (marked_iff hnodup hfits).1 (h.marked hlt _ ((hreads _).2 rfl))
    · intro h
      apply StoredRaw.mk
      · rw [serializeRaw_eq]
        exact hbound
      · rw [serializeRaw_eq]
        exact dumps_valid lib _ (standard_storedRaw hraw)
      · exact ⟨_, (hreads _).2 rfl⟩
      · rw [hreads]
        constructor
        · intro heq
          rw [heq]
          exact hbound
        · intro hle
          exact absurd hle (Nat.not_le.2 hlt)
      · intro _ o ho
        rw [(hreads o).1 ho]
        exact (marked_iff hnodup hfits).2 h
      · intro _ o ho k x hx htruncated hmarker
        rw [(hreads o).1 ho, hreduced] at hx
        rcases mem_reducedRaw hx with hmark | ⟨y, hy, hkept, -⟩
        · simp [htruncated, hmarker] at hmark
        · exact ⟨y, hy, hkept⟩

end Stored

def fractionText (q : Rat) : List Char :=
  (toString q.num).toList ++ '.' :: Nat.toDigits 10 (q.den - 1)

theorem fractionText_inj {p q : Rat} (h : fractionText p = fractionText q) : p = q := by
  have hwhole : ∀ q : Rat, (fractionText q).takeWhile (· ≠ '.') = (toString q.num).toList := by
    intro q
    rw [fractionText, List.takeWhile_append_of_pos (by simpa using JsonText.int_chars q.num)]
    simp
  have hnum := congrArg (List.takeWhile (· ≠ '.')) h
  rw [hwhole, hwhole] at hnum
  rw [fractionText, fractionText, hnum, List.append_cancel_left_eq, List.cons.injEq] at h
  have hden : p.den - 1 = q.den - 1 := by
    rw [← Nat.ofDigitChars_ten_toDigits (n := p.den - 1), h.2, Nat.ofDigitChars_ten_toDigits]
  have hp := p.den_pos
  have hq := q.den_pos
  exact Rat.ext (JsonText.int_inj hnum) (by omega)

/-- The real text on whole numbers. -/
def FloatRepr.fractions : FloatRepr where
  text
    | .finite q => fractionText q
    | _ => []
  number q := JsonText.isNumber_fraction q.num (.digits Nat.toDigits_ne_nil fun _ hd =>
    Nat.isDigit_of_mem_toDigits (by decide) (by decide) hd)
  injective _ _ h := fractionText_inj h
  apart q n h := by
    have hdot : '.' ∈ (toString n).toList := by
      rw [← h]
      simp [fractionText]
    exact JsonText.int_chars n '.' hdot rfl

def nestedNote : String × Json :=
  ("nested", .obj [("note", .str "the first sixty characters of what the sensor saw at the gate")])

theorem serializeRaw_stored_nested : StoredRaw .fractions [("id", .int 7), nestedNote] 50
    (serializeRaw .fractions [("id", .int 7), nestedNote] 50) :=
  (serializeRaw_stored_iff .fractions (by decide)
    (by simp [nestedNote, Json.Standard, StandardFields]) (by decide)).2
      (.inr (.inl (by simp [nestedNote, List.lookup_cons])))

/-- A vendor's own `_truncated` is stored as the marker. -/
theorem vendor_marker_stored : ¬ ∀ (lib : FloatRepr) (raw : Obj) (limit : Nat), 50 ≤ limit →
    (Json.obj raw).Standard → (raw.map Prod.fst).Nodup →
    StoredRaw lib raw limit (serializeRaw lib raw limit) := by
  intro h
  have hstandard : (Json.obj [("_truncated", .bool false), nestedNote]).Standard := by
    simp [nestedNote, Json.Standard, StandardFields]
  have hstored := h .fractions [("_truncated", .bool false), nestedNote] 50 (by decide) hstandard
    (by decide)
  have hmarked := hstored.marked (by decide +kernel) _
    ((readsAs_serializeRaw _ _ hstandard _).2 rfl)
  have hfalse : (storedRaw .fractions [("_truncated", .bool false), nestedNote] 50).lookup
      "_truncated" = some (.bool false) := by decide +kernel
  rw [hfalse] at hmarked
  cases hmarked

end CentralOps
