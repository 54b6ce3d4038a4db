import CentralOps.Pipeline.CaptureEntry

namespace CentralOps
set_option autoImplicit true

section Valid
variable {lib : RingLibrary}

theorem fieldTexts_eq (floatText : PyFloat → List Char) (o : Obj) : fieldTexts floatText o =
    (o.map (fun p => (JsonText.quote p.1.toList, p.2.text floatText))).map
      (fun m => m.1 ++ ':' :: m.2) := by
  induction o with
  | nil => rfl
  | cons p o ih =>
    rw [fieldTexts, ih]
    rfl

mutual
theorem text_valid : (x : Json) → x.Standard → JsonText.IsValue (x.text lib.floatText)
  | .null, _ => .null
  | .bool true, _ => .true
  | .bool false, _ => .false
  | .int n, _ => .number (JsonText.isNumber_int n)
  | .float (.finite q), _ => .number (lib.floatText_number q)
  | .str s, _ => .string (JsonText.isString_quote s.toList)
  | .list xs, h => .array (itemTexts_valid xs h)
  | .obj o, h => by
    rw [Json.text, fieldTexts_eq]
    apply JsonText.IsValue.object
    · intro m hm
      obtain ⟨p, -, rfl⟩ := List.mem_map.1 hm
      exact JsonText.isString_quote p.1.toList
    · intro m hm
      obtain ⟨p, hp, rfl⟩ := List.mem_map.1 hm
      exact fieldTexts_valid o h p hp

theorem itemTexts_valid : (xs : List Json) → StandardItems xs →
    ∀ v ∈ itemTexts lib.floatText xs, JsonText.IsValue v
  | [], _ => by simp [itemTexts]
  | x :: xs, h => by
    intro v hv
    rcases List.mem_cons.1 hv with rfl | hv
    · exact text_valid x h.1
    · exact itemTexts_valid xs h.2 v hv

theorem fieldTexts_valid : (o : Obj) → StandardFields o →
    ∀ p ∈ o, JsonText.IsValue (p.2.text lib.floatText)
  | [], _ => by simp
  | (k, x) :: o, h => by
    intro p hp
    rcases List.mem_cons.1 hp with rfl | hp
    · exact text_valid x h.1
    · exact fieldTexts_valid o h.2 p hp
end

theorem standard_obj {o : Obj} : (Json.obj o).Standard ↔ StandardFields o := Iff.rfl

theorem standardFields_iff {o : Obj} : StandardFields o ↔ ∀ p ∈ o, p.2.Standard := by
  induction o with
  | nil => simp [StandardFields]
  | cons p o ih =>
    rw [StandardFields, ih, List.forall_mem_cons]

theorem standardItems_iff {xs : List Json} : StandardItems xs ↔ ∀ x ∈ xs, x.Standard := by
  induction xs with
  | nil => simp [StandardItems]
  | cons x xs ih => rw [StandardItems, ih, List.forall_mem_cons]

mutual
theorem redact_standard : (x : Json) → x.Standard → (captureRedact lib x).Standard
  | .null, _ => trivial
  | .bool _, _ => trivial
  | .int _, _ => trivial
  | .float _, h => h
  | .str _, _ => trivial
  | .list xs, h => redactItems_standard xs h
  | .obj o, h => redactFields_standard o h

theorem redactItems_standard : (xs : List Json) → StandardItems xs →
    StandardItems (captureRedactItems lib xs)
  | [], _ => trivial
  | x :: xs, h => ⟨redact_standard x h.1, redactItems_standard xs h.2⟩

theorem redactFields_standard : (o : Obj) → StandardFields o →
    StandardFields (captureRedactFields lib o)
  | [], _ => trivial
  | (k, x) :: o, h => by
    apply And.intro _ (redactFields_standard o h.2)
    by_cases hk : lib.lower k ∈ sensitiveFieldNames
    · rw [if_pos hk]
      trivial
    · rw [if_neg hk]
      exact redact_standard x h.1
end

mutual
theorem reduceStructure_standard (strCap arrayCap : Nat) : (x : Json) → x.Standard →
    (reduceStructure strCap arrayCap x).Standard
  | .null, _ => trivial
  | .bool _, _ => trivial
  | .int _, _ => trivial
  | .float _, h => h
  | .str _, _ => trivial
  | .list xs, h => by
    have hitems := reduceItems_standard strCap arrayCap xs h
    have htake : ∀ x ∈ (reduceItems strCap arrayCap xs).take arrayCap, x.Standard :=
      fun x hx => standardItems_iff.1 hitems x (List.mem_of_mem_take hx)
    rw [reduceStructure, Json.Standard, standardItems_iff]
    split_ifs
    · intro x hx
      rcases List.mem_append.1 hx with hx | hx
      · exact htake x hx
      · rw [List.mem_singleton.1 hx]
        trivial
    · exact htake
  | .obj o, h => reduceFields_standard strCap arrayCap o h

theorem reduceItems_standard (strCap arrayCap : Nat) : (xs : List Json) → StandardItems xs →
    StandardItems (reduceItems strCap arrayCap xs)
  | [], _ => trivial
  | x :: xs, h =>
    ⟨reduceStructure_standard strCap arrayCap x h.1, reduceItems_standard strCap arrayCap xs h.2⟩

theorem reduceFields_standard (strCap arrayCap : Nat) : (o : Obj) → StandardFields o →
    StandardFields (reduceFields strCap arrayCap o)
  | [], _ => trivial
  | (_, x) :: o, h =>
    ⟨reduceStructure_standard strCap arrayCap x h.1, reduceFields_standard strCap arrayCap o h.2⟩
end

end Valid

section Size
variable {lib : RingLibrary}

theorem byteSize_append (cs ds : List Char) : byteSize (cs ++ ds) = byteSize cs + byteSize ds := by
  rw [byteSize, List.map_append, List.sum_append]
  rfl

theorem byteSize_le_of_within (h : cs <:+: ds) : byteSize cs ≤ byteSize ds := by
  obtain ⟨s, t, rfl⟩ := h
  rw [byteSize_append, byteSize_append]
  omega

theorem text_append_field (floatText : PyFloat → List Char) (o : Obj) (p : String × Json) :
    byteSize ((Json.obj o).text floatText) ≤ byteSize ((Json.obj (o ++ [p])).text floatText) := by
  have hfields : fieldTexts floatText (o ++ [p]) =
      fieldTexts floatText o ++ fieldTexts floatText [p] := by
    simp only [fieldTexts_eq, List.map_append]
  obtain ⟨q, hq⟩ := JsonText.intercalate_prefix [','] (fieldTexts floatText o)
    (JsonText.quote p.1.toList ++ ':' :: p.2.text floatText)
  have hone : fieldTexts floatText [p] = [JsonText.quote p.1.toList ++ ':' :: p.2.text floatText] :=
    rfl
  have hcons : ∀ (c : Char) (cs : List Char), byteSize (c :: cs) = c.utf8Size + byteSize cs :=
    fun c cs => rfl
  simp only [Json.text, hfields, hone, ← hq, List.cons_append, hcons, byteSize_append]
  omega

theorem fits_of_withCapture {p : RingPayload} {report : ClipMeta}
    (h : (p.withCapture report).fits lib = true) : p.fits lib = true := by
  have hle : p.bytes lib ≤ (p.withCapture report).bytes lib :=
    text_append_field lib.floatText p.toObj ("_capture", report.toJson)
  rw [RingPayload.fits, decide_eq_true_eq] at h ⊢
  exact hle.trans h

end Size

section Cascade
variable {lib : RingLibrary} {p : RingPayload}

/-- The states that the loop over the blocks goes through while nothing fits. -/
def cascade : List String → Obj × List String → List (Obj × List String)
  | [], s => [s]
  | block :: blocks, s =>
    match s.1.getN block with
    | .null => cascade blocks s
    | _ => s :: cascade blocks (Assoc.set block droppedMarker s.1, s.2 ++ [block])

theorem cascade_null {s : Obj × List String} (h : s.1.getN block = .null) :
    cascade (block :: blocks) s = cascade blocks s := by
  rw [cascade, h]

theorem cascade_block {s : Obj × List String} (h : s.1.getN block ≠ .null) :
    cascade (block :: blocks) s =
      s :: cascade blocks (Assoc.set block droppedMarker s.1, s.2 ++ [block]) := by
  rw [cascade]
  cases hblock : s.1.getN block with
  | null => exact absurd hblock h
  | _ => rfl

theorem cascade_head (blocks : List String) (s : Obj × List String) :
    ∃ rest, cascade blocks s = s :: rest := by
  induction blocks with
  | nil => exact ⟨[], rfl⟩
  | cons block blocks ih =>
    by_cases h : s.1.getN block = .null
    · rw [cascade_null h]
      exact ih
    · exact ⟨_, cascade_block h⟩

theorem cascade_dropped (blocks : List String) (s : Obj × List String) :
    (cascade blocks s).Pairwise (fun t u => t.2.length < u.2.length) ∧
      ∀ t ∈ cascade blocks s, s.2.length ≤ t.2.length := by
  induction blocks generalizing s with
  | nil => simp [cascade]
  | cons block blocks ih =>
    by_cases h : s.1.getN block = .null
    · rw [cascade_null h]
      exact ih s
    · obtain ⟨hrest, hle⟩ := ih (Assoc.set block droppedMarker s.1, s.2 ++ [block])
      simp only [List.length_append, List.length_singleton] at hle
      rw [cascade_block h]
      constructor
      · apply List.Pairwise.cons _ hrest
        exact fun t ht => Nat.lt_of_succ_le (hle t ht)
      · intro t ht
        rcases List.mem_cons.1 ht with rfl | ht
        · exact le_rfl
        · exact (Nat.le_succ _).trans (hle t ht)

theorem cascade_unique {s : Obj × List String} (ht : t ∈ cascade blocks s)
    (hu : u ∈ cascade blocks s) (h : t.2 = u.2) : t = u := by
  have hdistinct : ((cascade blocks s).map Prod.snd).Nodup := by
    rw [List.Nodup, List.pairwise_map]
    apply (cascade_dropped blocks s).1.imp
    intro t u hlt heq
    rw [heq] at hlt
    exact lt_irrefl _ hlt
  exact List.inj_on_of_nodup_map hdistinct ht hu h

def fitsIn (lib : RingLibrary) (p : RingPayload) (s : Obj × List String) : Bool :=
  (p.withEvent s.1).fits lib

theorem dropBlock_null {s : Obj × List String} (hfit : ¬ fitsIn lib p s = true)
    (h : s.1.getN block = .null) : dropBlock lib p s block = s := by
  change (if fitsIn lib p s = true then s else _) = s
  rw [if_neg hfit, h]

theorem dropBlock_block {s : Obj × List String} (hfit : ¬ fitsIn lib p s = true)
    (h : s.1.getN block ≠ .null) :
    dropBlock lib p s block = (Assoc.set block droppedMarker s.1, s.2 ++ [block]) := by
  change (if fitsIn lib p s = true then s else _) = _
  rw [if_neg hfit]
  cases hblock : s.1.getN block with
  | null => exact absurd hblock h
  | _ => rfl

theorem dropBlocks_of_fits {s : Obj × List String} (h : fitsIn lib p s = true)
    (blocks : List String) : blocks.foldl (dropBlock lib p) s = s := by
  induction blocks with
  | nil => rfl
  | cons block blocks ih =>
    have hstep : dropBlock lib p s block = s := if_pos h
    rw [List.foldl_cons, hstep]
    exact ih

/-- The loop ends in the first state that fits, or in one that does not when none does. -/
theorem dropBlocks_first (blocks : List String) (s : Obj × List String) :
    blocks.foldl (dropBlock lib p) s ∈ cascade blocks s ∧
      ((cascade blocks s).find? (fitsIn lib p) = some (blocks.foldl (dropBlock lib p) s) ∨
        (cascade blocks s).find? (fitsIn lib p) = none) := by
  by_cases hfit : fitsIn lib p s = true
  · obtain ⟨rest, hrest⟩ := cascade_head blocks s
    rw [dropBlocks_of_fits hfit, hrest, List.find?_cons_of_pos hfit]
    exact ⟨List.mem_cons_self, .inl rfl⟩
  · induction blocks generalizing s with
    | nil =>
      refine ⟨List.mem_singleton_self s, .inr ?_⟩
      rw [cascade, List.find?_cons_of_neg hfit, List.find?_nil]
    | cons block blocks ih =>
      rw [List.foldl_cons]
      by_cases h : s.1.getN block = .null
      · rw [dropBlock_null hfit h, cascade_null h]
        exact ih s hfit
      · rw [dropBlock_block hfit h, cascade_block h, List.find?_cons_of_neg hfit]
        by_cases hnext : fitsIn lib p (Assoc.set block droppedMarker s.1, s.2 ++ [block]) = true
        · obtain ⟨rest, hrest⟩ := cascade_head blocks
            (Assoc.set block droppedMarker s.1, s.2 ++ [block])
          rw [dropBlocks_of_fits hnext, hrest, List.find?_cons_of_pos hnext]
          exact ⟨List.mem_cons_of_mem s List.mem_cons_self, .inl rfl⟩
        · obtain ⟨hmem, hfirst⟩ := ih _ hnext
          exact ⟨List.mem_cons_of_mem s hmem, hfirst⟩

theorem find?_of_imp {f g : α → Bool} {xs : List α} (h : xs.find? f = some x)
    (hgf : ∀ y, g y = true → f y = true) (hx : g x = true) : xs.find? g = some x := by
  induction xs with
  | nil => cases h
  | cons y ys ih =>
    by_cases hy : f y = true
    · rw [List.find?_cons_of_pos hy] at h
      cases h
      exact List.find?_cons_of_pos hx
    · rw [List.find?_cons_of_neg hy] at h
      rw [List.find?_cons_of_neg (fun hg => hy (hgf y hg))]
      exact ih h

end Cascade

section Cut
variable (lib : RingLibrary) (p : RingPayload)

def cutStates (event : Obj) : List (Obj × List String) :=
  cascade ["raw", "normalized"] (reduceFields maxFieldBytes 200 event, [])

def cutState (event : Obj) : Obj × List String :=
  ["raw", "normalized"].foldl (dropBlock lib p) (reduceFields maxFieldBytes 200 event, [])

/-- What the entry would say of a cut that ends in a state. -/
def cutReport (s : Obj × List String) : ClipMeta :=
  ⟨[("event", "reduce_structure")], s.2, p.bytes lib, (p.withEvent s.1).bytes lib⟩

def cutPayload (event : Obj) : RingPayload :=
  p.withCapture (cutReport lib p (cutState lib p event))

def CutFits : Prop :=
  ∃ event s, p.event = .obj event ∧ (cutStates event).find? (fitsIn lib p) = some s ∧
    ((p.withEvent s.1).withCapture (cutReport lib p s)).fits lib = true

variable {lib p}

theorem cutState_first (lib : RingLibrary) (p : RingPayload) (event : Obj) :
    cutState lib p event ∈ cutStates event ∧
      ((cutStates event).find? (fitsIn lib p) = some (cutState lib p event) ∨
        (cutStates event).find? (fitsIn lib p) = none) := dropBlocks_first _ _

theorem cutState_eq (h : (cutStates event).find? (fitsIn lib p) = some s) :
    cutState lib p event = s := by
  rcases (cutState_first lib p event).2 with hfirst | hnone
  · exact Option.some.inj (hfirst.symm.trans h)
  · rw [hnone] at h
    cases h

theorem clipForRing_obj (h : ¬ p.fits lib = true) (hevent : p.event = .obj event) :
    clipForRing lib p = (p.withEvent (cutState lib p event).1,
      some (cutReport lib p (cutState lib p event))) := by
  rw [clipForRing, if_neg h, hevent]
  rfl

-- What is proved of an entry from here on needs of the state only that it is among the states.
attribute [local irreducible] cutState

theorem clipForRing_other (h : ¬ p.fits lib = true) (hevent : ∀ o, p.event ≠ .obj o) :
    clipForRing lib p = (p, some ⟨[], [], p.bytes lib, p.bytes lib⟩) := by
  rw [clipForRing, if_neg h]
  cases he : p.event with
  | obj o => exact absurd he (hevent o)
  | _ => rfl

theorem not_fits_withCapture (h : ¬ p.fits lib = true) (report : ClipMeta) :
    ¬ (p.withCapture report).fits lib = true := fun hfit => h (fits_of_withCapture hfit)

theorem storeEntry_fits (h : p.fits lib = true) : storeEntry lib p = ⟨p, [], none⟩ := by
  rw [storeEntry, clipForRing, if_pos h]

theorem storeEntry_obj (h : ¬ p.fits lib = true) (hevent : p.event = .obj event) :
    storeEntry lib p =
      ⟨(cutPayload lib p event).withEvent (cutState lib (cutPayload lib p event) event).1,
        (cutState lib (cutPayload lib p event) event).2,
        some (cutReport lib p (cutState lib p event))⟩ := by
  have hagain :=
    @clipForRing_obj lib (cutPayload lib p event) event (not_fits_withCapture h _) hevent
  rw [storeEntry, clipForRing_obj h hevent]
  dsimp only
  rw [← cutPayload, hagain]
  rfl

theorem storeEntry_other (h : ¬ p.fits lib = true) (hevent : ∀ o, p.event ≠ .obj o) :
    storeEntry lib p = ⟨p.withCapture ⟨[], [], p.bytes lib, p.bytes lib⟩, [],
      some ⟨[], [], p.bytes lib, p.bytes lib⟩⟩ := by
  rw [storeEntry, clipForRing_other h hevent]
  dsimp only
  rw [clipForRing_other (not_fits_withCapture h _) hevent]
  rfl

theorem fitsIn_of_cutPayload (u : Obj × List String)
    (h : fitsIn lib (cutPayload lib p event) u = true) : fitsIn lib p u = true :=
  @fits_of_withCapture lib (p.withEvent u.1) (cutReport lib p (cutState lib p event)) h

/-- A stored entry is within bounds and tells its dropped blocks exactly when the first state that
fits leaves room for the report. -/
theorem storeEntry_exact_iff (h : ¬ p.fits lib = true) :
    ((storeEntry lib p).payload.fits lib = true ∧
        ∀ report, (storeEntry lib p).capture = some report →
          report.droppedBlocks = (storeEntry lib p).replaced) ↔ CutFits lib p := by
  by_cases hobj : ∃ event, p.event = .obj event
  · obtain ⟨event, hevent⟩ := hobj
    obtain ⟨hmem, hfirst⟩ := cutState_first lib p event
    obtain ⟨hmem', -⟩ := cutState_first lib (cutPayload lib p event) event
    rw [storeEntry_obj h hevent]
    constructor
    · rintro ⟨hfit, htold⟩
      have hsame : cutState lib p event = cutState lib (cutPayload lib p event) event :=
        cascade_unique hmem hmem' (htold _ rfl)
      rw [← hsame] at hfit
      rcases hfirst with hfirst | hnone
      · exact ⟨event, _, hevent, hfirst, hfit⟩
      · exact absurd (fitsIn_of_cutPayload _ hfit) (List.find?_eq_none.1 hnone _ hmem)
    · rintro ⟨event', s, hevent', hs, hfit⟩
      rw [hevent] at hevent'
      cases hevent'
      have hstate := cutState_eq hs
      have hroom : fitsIn lib (cutPayload lib p event) s = true := by
        rw [cutPayload, hstate]
        exact hfit
      have hstate' := cutState_eq (find?_of_imp hs (fun u => fitsIn_of_cutPayload u) hroom)
      rw [hstate']
      apply And.intro hroom
      rintro report hreport
      cases hreport
      rw [hstate]
      rfl
  · have hother : ∀ o, p.event ≠ .obj o := fun o ho => hobj ⟨o, ho⟩
    rw [storeEntry_other h hother]
    apply iff_of_false
    · rintro ⟨hfit, -⟩
      exact not_fits_withCapture h _ hfit
    · rintro ⟨event, -, hevent, -⟩
      exact hother event hevent

end Cut

section Identity
variable {lib : RingLibrary}

/-- `event_id` in what stands under `_centralops`. -/
def eventIdField : Json → Option Json
  | .obj labels => labels.lookup "event_id"
  | _ => none

/-- An event with a `_centralops` block is stored with it, and with the same `event_id`. -/
def SameId (ev stored : Json) : Prop :=
  ∀ o labels, ev = .obj o → o.lookup "_centralops" = some labels →
    ∃ o' labels', stored = .obj o' ∧ o'.lookup "_centralops" = some labels' ∧
      eventIdField labels' = eventIdField labels

/-- The redaction, and for what is cut the reduction, leave the `event_id` as it is. -/
def KeepsId (f : Json → Json) (ev : Json) : Prop :=
  ∀ o labels id, ev = .obj o → o.lookup "_centralops" = some labels →
    eventIdField labels = some id → f id = id

theorem lookup_redactFields (o : Obj) (hkey : lib.lower k ∉ sensitiveFieldNames) :
    (captureRedactFields lib o).lookup k = (o.lookup k).map (captureRedact lib) := by
  induction o with
  | nil => rfl
  | cons p o ih =>
    rw [captureRedactFields, Assoc.lookup_cons_eq, Assoc.lookup_cons_eq]
    by_cases hk : p.1 = k
    · rw [if_pos hk, if_pos hk, hk, if_neg hkey]
      rfl
    · rw [if_neg hk, if_neg hk, ih]

theorem lookup_reduceFields (strCap arrayCap : Nat) (o : Obj) (k : String) :
    (reduceFields strCap arrayCap o).lookup k =
      (o.lookup k).map (reduceStructure strCap arrayCap) := by
  induction o with
  | nil => rfl
  | cons p o ih =>
    rw [reduceFields, Assoc.lookup_cons_eq, Assoc.lookup_cons_eq]
    by_cases hk : p.1 = k
    · rw [if_pos hk, if_pos hk]
      rfl
    · rw [if_neg hk, if_neg hk, ih]

theorem lower_centralops : lib.lower "_centralops" ∉ sensitiveFieldNames := by
  rw [lib.lower_ascii _ (by simp)]
  decide

theorem lower_eventId : lib.lower "event_id" ∉ sensitiveFieldNames := by
  rw [lib.lower_ascii _ (by simp)]
  decide

theorem eventIdField_redact (labels : Json) :
    eventIdField (captureRedact lib labels) = (eventIdField labels).map (captureRedact lib) := by
  cases labels with
  | obj o => exact lookup_redactFields o lower_eventId
  | _ => rfl

theorem eventIdField_reduce (strCap arrayCap : Nat) (labels : Json) :
    eventIdField (reduceStructure strCap arrayCap labels) =
      (eventIdField labels).map (reduceStructure strCap arrayCap) := by
  cases labels with
  | obj o => exact lookup_reduceFields strCap arrayCap o "event_id"
  | _ => rfl

theorem lookup_cascade {s : Obj × List String} (ht : t ∈ cascade blocks s) (hk : k ∉ blocks) :
    t.1.lookup k = s.1.lookup k := by
  induction blocks generalizing s with
  | nil => rw [List.mem_singleton.1 ht]
  | cons block blocks ih =>
    rw [List.mem_cons, not_or] at hk
    by_cases h : s.1.getN block = .null
    · rw [cascade_null h] at ht
      exact ih ht hk.2
    · rw [cascade_block h] at ht
      rcases List.mem_cons.1 ht with rfl | ht
      · rfl
      · rw [ih ht hk.2, Assoc.lookup_set_ne hk.1]

theorem sameId_iff {f : Json → Json} (hlookup : ∀ o labels, ev = .obj o →
      o.lookup "_centralops" = some labels →
      ∃ o', stored = .obj o' ∧ o'.lookup "_centralops" = some (f labels))
    (hf : ∀ labels, eventIdField (f labels) = (eventIdField labels).map f) :
    SameId ev stored ↔ KeepsId f ev := by
  constructor
  · intro h o labels id hev hlabels hid
    obtain ⟨o', labels', hstored, hlabels', hsame⟩ := h o labels hev hlabels
    obtain ⟨o'', hstored', hlabels''⟩ := hlookup o labels hev hlabels
    rw [hstored] at hstored'
    cases hstored'
    rw [hlabels'] at hlabels''
    cases hlabels''
    rw [hf, hid] at hsame
    exact Option.some.inj hsame
  · intro h o labels hev hlabels
    obtain ⟨o', hstored, hlabels'⟩ := hlookup o labels hev hlabels
    refine ⟨o', f labels, hstored, hlabels', ?_⟩
    rw [hf]
    cases hid : eventIdField labels with
    | none => rfl
    | some id => exact congrArg some (h o labels id hev hlabels hid)

theorem sameId_redact_iff : SameId ev (captureRedact lib ev) ↔ KeepsId (captureRedact lib) ev := by
  apply sameId_iff _ eventIdField_redact
  rintro o labels rfl hlabels
  refine ⟨captureRedactFields lib o, rfl, ?_⟩
  rw [lookup_redactFields o lower_centralops, hlabels]
  rfl

theorem sameId_cut_iff {p : RingPayload} (h : ¬ p.fits lib = true)
    (hevent : p.event = captureRedact lib ev) :
    SameId ev (storeEntry lib p).payload.event ↔
      KeepsId (fun x => reduceStructure maxFieldBytes 200 (captureRedact lib x)) ev := by
  apply sameId_iff
  · rintro o labels rfl hlabels
    rw [storeEntry_obj h hevent]
    have hmem := (cutState_first lib (cutPayload lib p (captureRedactFields lib o))
      (captureRedactFields lib o)).1
    refine ⟨(cutState lib (cutPayload lib p (captureRedactFields lib o))
      (captureRedactFields lib o)).1, rfl, ?_⟩
    rw [lookup_cascade hmem (by decide), lookup_reduceFields,
      lookup_redactFields o lower_centralops, hlabels]
    rfl
  · intro labels
    rw [eventIdField_reduce, eventIdField_redact, Option.map_map]
    rfl

end Identity

section Honest
variable (lib : RingLibrary)

/-- What an entry promises about the event it was made of, given the payload before any cut. -/
structure HonestEntry (ev : Json) (p : RingPayload) : Prop where
  valid : JsonText.IsValue (dumpsEntry lib (storeEntry lib p).payload)
  bounded : byteSize (dumpsEntry lib (storeEntry lib p).payload) ≤ maxEntryBytes
  joinable : SameId ev (storeEntry lib p).payload.event
  whole : byteSize (dumpsEntry lib p) ≤ maxEntryBytes →
    dumpsEntry lib (storeEntry lib p).payload = dumpsEntry lib p
  told : ∀ report, (storeEntry lib p).capture = some report →
    ("_capture", report.toJson) ∈ (storeEntry lib p).payload.rest ∧
      report.droppedBlocks = (storeEntry lib p).replaced

/-- The identity of the event is untouched by what the entry goes through, and a payload that does
not fit has a cut that fits with its report. -/
structure WellCut (ev : Json) (p : RingPayload) : Prop where
  identity : KeepsId (fun x => if p.fits lib then captureRedact lib x
    else reduceStructure maxFieldBytes 200 (captureRedact lib x)) ev
  room : p.fits lib = false → CutFits lib p

variable {lib}

theorem droppedMarker_standard : droppedMarker.Standard := ⟨trivial, trivial, trivial⟩

theorem ClipMeta.toJson_standard (report : ClipMeta) : report.toJson.Standard := by
  refine ⟨standardItems_iff.2 ?_, standardItems_iff.2 ?_, trivial, trivial, trivial⟩
  · intro x hx
    obtain ⟨note, -, rfl⟩ := List.mem_map.1 hx
    exact ⟨trivial, trivial, trivial⟩
  · intro x hx
    obtain ⟨block, -, rfl⟩ := List.mem_map.1 hx
    trivial

theorem standardFields_set (h : StandardFields o) (hx : x.Standard) (k : String) :
    StandardFields (Assoc.set k x o) := by
  rw [standardFields_iff] at h ⊢
  intro p hp
  rcases Assoc.mem_of_mem_set hp with rfl | hp
  · exact hx
  · exact h p hp

theorem cascade_standard {s : Obj × List String} (hs : StandardFields s.1)
    (ht : t ∈ cascade blocks s) : StandardFields t.1 := by
  induction blocks generalizing s with
  | nil =>
    rw [List.mem_singleton.1 ht]
    exact hs
  | cons block blocks ih =>
    by_cases h : s.1.getN block = .null
    · rw [cascade_null h] at ht
      exact ih hs ht
    · rw [cascade_block h] at ht
      rcases List.mem_cons.1 ht with rfl | ht
      · exact hs
      · exact ih (standardFields_set hs droppedMarker_standard block) ht

theorem withCapture_standard {p : RingPayload} (hrest : StandardFields p.rest)
    (report : ClipMeta) : StandardFields (p.withCapture report).rest := by
  rw [standardFields_iff] at hrest ⊢
  intro q hq
  rcases List.mem_append.1 hq with hq | hq
  · exact hrest q hq
  · rw [List.mem_singleton.1 hq]
    exact report.toJson_standard

/-- The text of an entry is never cut: it is that of a whole document. -/
theorem storeEntry_valid {p : RingPayload} (hevent : p.event.Standard)
    (hrest : StandardFields p.rest) :
    JsonText.IsValue (dumpsEntry lib (storeEntry lib p).payload) := by
  have hwhole : ∀ q : RingPayload, q.event.Standard → StandardFields q.rest →
      JsonText.IsValue (dumpsEntry lib q) :=
    fun q he hr => text_valid (.obj q.toObj) (standard_obj.2 ⟨trivial, he, hr⟩)
  by_cases h : p.fits lib = true
  · rw [storeEntry_fits h]
    exact hwhole p hevent hrest
  · by_cases hobj : ∃ event, p.event = .obj event
    · obtain ⟨event, he⟩ := hobj
      rw [he] at hevent
      have hreduced : StandardFields (reduceFields maxFieldBytes 200 event) :=
        reduceFields_standard maxFieldBytes 200 event hevent
      have hcut := cascade_standard hreduced
        (cutState_first lib (cutPayload lib p event) event).1
      have hreport := withCapture_standard hrest (cutReport lib p (cutState lib p event))
      rw [storeEntry_obj h he]
      -- The state is opaque from here on, lest it be computed.
      generalize cutState lib (cutPayload lib p event) event = t at hcut ⊢
      exact hwhole ((cutPayload lib p event).withEvent t.1) hcut hreport
    · rw [storeEntry_other h (fun o ho => hobj ⟨o, ho⟩)]
      exact hwhole _ hevent (withCapture_standard hrest _)

theorem storeEntry_capture {p : RingPayload} (hcapture : (storeEntry lib p).capture = some report) :
    ("_capture", report.toJson) ∈ (storeEntry lib p).payload.rest := by
  by_cases h : p.fits lib = true
  · rw [storeEntry_fits h] at hcapture
    cases hcapture
  · by_cases hobj : ∃ event, p.event = .obj event
    · obtain ⟨event, he⟩ := hobj
      rw [storeEntry_obj h he] at hcapture ⊢
      cases hcapture
      exact List.mem_append_right _ (List.mem_singleton_self _)
    · rw [storeEntry_other h (fun o ho => hobj ⟨o, ho⟩)] at hcapture ⊢
      cases hcapture
      exact List.mem_append_right _ (List.mem_singleton_self _)

/-- An entry keeps its promises exactly when its cut does well. -/
theorem honest_iff_wellCut {p : RingPayload} (hevent : p.event = captureRedact lib ev)
    (hev : ev.Standard) (hrest : StandardFields p.rest) :
    HonestEntry lib ev p ↔ WellCut lib ev p := by
  have hstandard : p.event.Standard := by
    rw [hevent]
    exact redact_standard ev hev
  have hvalid : JsonText.IsValue (dumpsEntry lib (storeEntry lib p).payload) :=
    storeEntry_valid hstandard hrest
  have hbounded : ∀ q : RingPayload, byteSize (dumpsEntry lib q) ≤ maxEntryBytes ↔
      q.fits lib = true := fun q => decide_eq_true_iff.symm
  by_cases h : p.fits lib = true
  · have hstore := storeEntry_fits h
    have hid : SameId ev (storeEntry lib p).payload.event ↔ KeepsId (captureRedact lib) ev := by
      rw [hstore, hevent]
      exact sameId_redact_iff
    constructor
    · intro honest
      constructor
      · simp only [h, if_true]
        exact hid.1 honest.joinable
      · intro hno
        rw [h] at hno
        cases hno
    · intro hcut
      have hkeeps := hcut.identity
      simp only [h, if_true] at hkeeps
      constructor
      · exact hvalid
      · rw [hstore, hbounded]
        exact h
      · exact hid.2 hkeeps
      · intro _
        rw [hstore]
      · intro report hreport
        rw [hstore] at hreport
        cases hreport
  · have hid := sameId_cut_iff h hevent
    have hexact := storeEntry_exact_iff h
    constructor
    · intro honest
      constructor
      · simp only [h]
        exact hid.1 honest.joinable
      · intro _
        apply hexact.1
        exact ⟨(hbounded _).1 honest.bounded, fun report hreport => (honest.told report hreport).2⟩
    · intro hcut
      have hkeeps := hcut.identity
      simp only [h] at hkeeps
      obtain ⟨hfit, htold⟩ := hexact.2 (hcut.room (eq_false_of_ne_true h))
      constructor
      · exact hvalid
      · exact (hbounded _).2 hfit
      · exact hid.2 hkeeps
      · intro hwhole
        exact absurd ((hbounded p).1 hwhole) h
      · intro report hreport
        exact ⟨storeEntry_capture hreport, htold report hreport⟩

end Honest

section Entries
variable {lib : RingLibrary}

theorem nonEmptyField_standard (key : String) (v : Option String) :
    StandardFields (nonEmptyField key v) := by
  rw [nonEmptyField]
  cases v.filter (· ≠ "") with
  | none => trivial
  | some s => exact ⟨trivial, trivial⟩

theorem standardFields_append (h : StandardFields o) (h' : StandardFields o') :
    StandardFields (o ++ o') := by
  rw [standardFields_iff] at h h' ⊢
  exact fun p hp => (List.mem_append.1 hp).elim (h p) (h' p)

theorem optionalText_standard (v : Option String) : (optionalText v).Standard := by
  cases v with
  | none => trivial
  | some s => trivial

theorem entryPayload_standard {args : TapArgs}
    (hwires : ∀ wires, args.wires = some wires → ∀ wire, some wire ∈ wires → StandardFields wire)
    (idx : Nat) (ev : Json) : StandardFields (entryPayload lib args idx ev).rest := by
  have hwire : StandardFields
      ((args.wires.bind (·[idx]?)).join.map (fun wire => ("wire", Json.obj wire))).toList := by
    cases hw : (args.wires.bind (·[idx]?)).join with
    | none => trivial
    | some wire =>
      rw [Option.join_eq_some_iff, Option.bind_eq_some_iff] at hw
      obtain ⟨wires, hwires', hmem⟩ := hw
      exact ⟨hwires wires hwires' wire (List.mem_of_getElem? hmem), trivial⟩
  have hdest : StandardFields
      (args.destinationId.map (fun d => ("destination_id", Json.str d))).toList := by
    cases args.destinationId with
    | none => trivial
    | some d => exact ⟨trivial, trivial⟩
  apply standardFields_append _ (nonEmptyField_standard _ _)
  apply standardFields_append _ (nonEmptyField_standard _ _)
  apply standardFields_append _ hdest
  apply standardFields_append _ hwire
  apply standardFields_append _ (nonEmptyField_standard _ _)
  apply standardFields_append _ (nonEmptyField_standard _ _)
  exact ⟨optionalText_standard _, trivial, trivial, trivial, trivial, trivial,
    optionalText_standard _, trivial⟩

/-- Every entry of a call keeps its promises exactly when the cut of every event does well. -/
theorem entries_honest_iff (m : SessionMeta) {args : TapArgs} {batch : List Json}
    (hbatch : ∀ ev ∈ batch, ev.Standard)
    (hwires : ∀ wires, args.wires = some wires → ∀ wire, some wire ∈ wires → StandardFields wire) :
    (∀ e ∈ tappedEvents lib m args batch, HonestEntry lib e.1 e.2) ↔
      ∀ e ∈ tappedEvents lib m args batch, WellCut lib e.1 e.2 := by
  apply forall₂_congr
  intro e he
  obtain ⟨⟨ev, idx⟩, hp, htapped⟩ := List.mem_filterMap.1 he
  have hev : ev ∈ batch := List.fst_mem_of_mem_zipIdx hp
  split_ifs at htapped
  cases htapped
  exact honest_iff_wellCut rfl (hbatch ev hev) (entryPayload_standard hwires idx ev)

end Entries

/-- What the library does on ASCII text and on whole numbers of seconds. -/
def RingLibrary.ascii : RingLibrary where
  lower s := String.ofList (s.toList.map Char.toLower)
  casefold s := String.ofList (s.toList.map Char.toLower)
  str
    | .str s => s
    | _ => ""
  isWord c := c.isAlphanum || c == '_'
  floatText
    | .finite q => (toString q.floor).toList ++ ['.', '0']
    | _ => "null".toList
  lower_ascii s hs := by
    have hsame : ∀ c ∈ s.toList, c.toLower = id c := by
      intro c hc
      have hupper : ¬ (c.val ≥ 'A'.val ∧ c.val ≤ 'Z'.val) := of_decide_eq_false (hs c hc).2
      exact dif_neg hupper
    rw [List.map_congr_left hsame, List.map_id, String.ofList_toList]
  floatText_number q := JsonText.isNumber_fraction q.floor (.digits (by simp) (by simp))

def tapped : TapArgs where
  now := 1
  outcome := "delivered"

def oneLogin : Json :=
  .obj [("_centralops", .obj [("vendor", .str "sophos"), ("event_id", .str "e1")]),
    ("raw", .obj [("user", .str "ana"), ("password", .str "x")])]

theorem entries_honest_iff_login :
    (∀ e ∈ tappedEvents .ascii {} tapped [oneLogin],
        HonestEntry .ascii e.1 e.2) ↔
      ∀ e ∈ tappedEvents .ascii {} tapped [oneLogin],
        WellCut .ascii e.1 e.2 := by
  apply entries_honest_iff
  · intro ev hev
    rw [List.mem_singleton.1 hev]
    exact ⟨⟨trivial, trivial, trivial⟩, ⟨trivial, trivial, trivial⟩, trivial⟩
  · intro wires hwires
    cases hwires

theorem length_fieldTexts (floatText : PyFloat → List Char) (o : Obj) :
    3 * o.length ≤ (List.intercalate [','] (fieldTexts floatText o)).length := by
  induction o with
  | nil => exact Nat.zero_le _
  | cons p o ih =>
    have hfield : 3 ≤ (JsonText.quote p.1.toList ++ ':' :: p.2.text floatText).length := by
      simp only [JsonText.quote, List.length_append, List.length_cons, List.length_nil]
      omega
    cases o with
    | nil =>
      rw [fieldTexts, fieldTexts, List.intercalate_singleton]
      exact hfield
    | cons q o =>
      rw [fieldTexts] at ih ⊢
      rw [fieldTexts, List.intercalate_cons_cons]
      simp only [List.length_append, List.length_cons] at ih hfield ⊢
      omega

theorem length_le_byteSize (cs : List Char) : cs.length ≤ byteSize cs := by
  induction cs with
  | nil => exact le_rfl
  | cons c cs ih =>
    have hpos : 0 < c.utf8Size := Char.utf8Size_pos c
    change cs.length + 1 ≤ c.utf8Size + byteSize cs
    omega

theorem text_infix_of_mem (floatText : PyFloat → List Char) {o : Obj} (h : (k, x) ∈ o) :
    x.text floatText <:+: (Json.obj o).text floatText := by
  have hfield : JsonText.quote k.toList ++ ':' :: x.text floatText ∈ fieldTexts floatText o := by
    rw [fieldTexts_eq]
    exact List.mem_map_of_mem (List.mem_map_of_mem h)
  have hx : x.text floatText <:+: JsonText.quote k.toList ++ ':' :: x.text floatText :=
    ((List.suffix_cons _ _).trans (List.suffix_append _ _)).isInfix
  have hinner : List.intercalate [','] (fieldTexts floatText o) <:+: (Json.obj o).text floatText :=
    ⟨['\x7b'], ['\x7d'], rfl⟩
  exact (hx.trans (JsonText.infix_intercalate [','] hfield)).trans hinner

theorem length_redactFields (lib : RingLibrary) (o : Obj) :
    (captureRedactFields lib o).length = o.length := by
  induction o with
  | nil => rfl
  | cons p o ih => exact congrArg (· + 1) ih

theorem length_reduceFields (strCap arrayCap : Nat) (o : Obj) :
    (reduceFields strCap arrayCap o).length = o.length := by
  induction o with
  | nil => rfl
  | cons p o ih => exact congrArg (· + 1) ih

theorem storeEntry_keys {lib : RingLibrary} {p : RingPayload} {event fields : Obj}
    (hevent : p.event = .obj event) (hfields : event.lookup k = some (.obj fields))
    (hk : k ∉ ["raw", "normalized"]) :
    ∃ o fields', (storeEntry lib p).payload.event = .obj o ∧
      (k, Json.obj fields') ∈ o ∧ fields'.length = fields.length := by
  by_cases h : p.fits lib = true
  · rw [storeEntry_fits h]
    exact ⟨event, fields, hevent, Assoc.mem_of_lookup hfields, rfl⟩
  · rw [storeEntry_obj h hevent]
    have hmem := (cutState_first lib (cutPayload lib p event) event).1
    refine ⟨(cutState lib (cutPayload lib p event) event).1,
      reduceFields maxFieldBytes 200 fields, rfl, ?_, length_reduceFields _ _ _⟩
    apply Assoc.mem_of_lookup
    rw [lookup_cascade hmem hk, lookup_reduceFields, hfields]
    rfl

/-- An event with one dict of many keys, in a block that is never dropped. -/
def manyKeys : Json :=
  .obj [("data", .obj ((List.range 21846).map (fun i => (i.repr, .int 0))))]

/-- The entry of an event with many keys is larger than the cap. -/
theorem manyKeys_exceeds :
    ∃ text ∈ entriesFor .ascii {} tapped [manyKeys], maxEntryBytes < byteSize text := by
  have hdata : RingLibrary.ascii.lower "data" ∉ sensitiveFieldNames := by decide
  let fields := captureRedactFields .ascii ((List.range 21846).map (fun i => (i.repr, .int 0)))
  have hlookup : (captureRedactFields .ascii [("data",
      .obj ((List.range 21846).map (fun i => (i.repr, .int 0))))]).lookup "data" =
        some (.obj fields) := by
    rw [lookup_redactFields _ hdata]
    rfl
  obtain ⟨o, fields', hevent, hmem, hlength⟩ :=
    @storeEntry_keys "data" .ascii (entryPayload .ascii tapped 0 manyKeys) _ fields rfl hlookup
      (by decide)
  refine ⟨dumpsEntry .ascii (storeEntry .ascii (entryPayload .ascii tapped 0 manyKeys)).payload,
    List.mem_singleton_self _, ?_⟩
  have hinfix : (Json.obj fields').text RingLibrary.ascii.floatText <:+:
      dumpsEntry .ascii (storeEntry .ascii (entryPayload .ascii tapped 0 manyKeys)).payload := by
    apply (text_infix_of_mem _ hmem).trans
    rw [← hevent]
    exact text_infix_of_mem _ (List.mem_cons_of_mem _ List.mem_cons_self)
  have hkeys : 3 * fields'.length ≤
      ((Json.obj fields').text RingLibrary.ascii.floatText).length := by
    apply (length_fieldTexts RingLibrary.ascii.floatText fields').trans
    simp only [Json.text, List.length_append, List.length_cons]
    omega
  have hmany : fields'.length = 21846 := by
    rw [hlength, length_redactFields, List.length_map, List.length_range]
  have hcap : maxEntryBytes < ((Json.obj fields').text RingLibrary.ascii.floatText).length := by
    rw [maxEntryBytes]
    omega
  exact hcap.trans_le ((length_le_byteSize _).trans (byteSize_le_of_within hinfix))

end CentralOps
