import CentralOps.Normalize.Drift

namespace CentralOps
set_option autoImplicit true

section Indices

/-- What an index of an array cannot run into. -/
def Breaks (t : List Char) : Prop := ∀ c ∈ t.head?, c = '.' ∨ c = '['

theorem indexEnd_of_breaks (h : Breaks t) : indexEnd t = none := by
  cases t with
  | nil => rfl
  | cons c t =>
    rcases h c rfl with rfl | rfl
    · rfl
    · rfl

theorem indexEnd_append (s : List Char) (h : Breaks t) : indexEnd (s ++ t) = indexEnd s := by
  induction s with
  | nil => exact indexEnd_of_breaks h
  | cons c s ih =>
    simp only [List.cons_append, indexEnd, ih]

theorem indexEnd_le (h : indexEnd s = some n) : n ≤ s.length := by
  induction s generalizing n with
  | nil => cases h
  | cons c s ih =>
    rw [indexEnd] at h
    split at h
    · cases h
      exact Nat.le_add_left 1 s.length
    · split at h
      · obtain ⟨k, hk, rfl⟩ := Option.map_eq_some_iff.1 h
        exact Nat.succ_le_succ (ih hk)
      · cases h

theorem stripIndices_append (h : Breaks t) (s : List Char) (n : Nat) (hn : n ≤ s.length) :
    stripIndices n (s ++ t) = stripIndices n s ++ stripIndices 0 t := by
  induction s generalizing n with
  | nil =>
    rw [List.length_nil, Nat.le_zero] at hn
    subst hn
    rfl
  | cons c s ih =>
    cases n with
    | succ n => exact ih n (Nat.le_of_succ_le_succ hn)
    | zero =>
      simp only [List.cons_append, stripIndices, indexEnd_append s h]
      split
      · split
        · rename_i k hk
          exact ih k (indexEnd_le hk)
        · rw [ih 0 (Nat.zero_le _), List.cons_append]
      · rw [ih 0 (Nat.zero_le _), List.cons_append]

end Indices

section Known
variable {known : List String}

theorem knownAbove_step {c : Char} {rest : List Char} (fuel : Nat)
    (h : s.dropWhile (· ≠ '.') = x :: c :: rest) :
    knownAbove known (fuel + 1) s = true ↔
      String.ofList (c :: rest).reverse ∈ known ∨ knownAbove known fuel (c :: rest) = true := by
  rw [knownAbove, h, Bool.or_eq_true, List.contains_iff_mem]

theorem knownAbove_of_mem (fuel : Nat) (v : List Char) (hr : r ≠ [])
    (hmem : String.ofList r.reverse ∈ known) (hfuel : v.length < fuel) :
    knownAbove known fuel (v ++ '.' :: r) = true := by
  obtain ⟨c, rest, rfl⟩ := List.exists_cons_of_ne_nil hr
  induction fuel generalizing v with
  | zero => exact absurd hfuel (Nat.not_lt_zero _)
  | succ fuel ih =>
    cases hv : v.dropWhile (· ≠ '.') with
    | nil =>
      have hdrop : (v ++ '.' :: c :: rest).dropWhile (· ≠ '.') = '.' :: c :: rest := by
        rw [List.dropWhile_append, hv]
        rfl
      rw [knownAbove_step fuel hdrop]
      exact .inl hmem
    | cons x v' =>
      have hdrop : (v ++ '.' :: c :: rest).dropWhile (· ≠ '.') = x :: (v' ++ '.' :: c :: rest) := by
        rw [List.dropWhile_append, hv]
        rfl
      have hlen : v'.length < fuel := by
        have hle := (List.dropWhile_suffix (· ≠ '.') (l := v)).length_le
        rw [hv, List.length_cons] at hle
        omega
      have hrest := ih v' hlen
      cases v' with
      | nil =>
        rw [List.nil_append] at hdrop hrest
        exact (knownAbove_step fuel hdrop).2 (.inr hrest)
      | cons y v' => exact (knownAbove_step fuel hdrop).2 (.inr hrest)

theorem knownAbove_spec (fuel : Nat) (s : List Char) (h : knownAbove known fuel s = true) :
    ∃ v r, s = v ++ '.' :: r ∧ r ≠ [] ∧ String.ofList r.reverse ∈ known := by
  induction fuel generalizing s with
  | zero => cases h
  | succ fuel ih =>
    have hs := List.takeWhile_append_dropWhile (p := (· ≠ '.')) (l := s)
    have hdot := List.head?_dropWhile_not (· ≠ '.') s
    cases hdrop : s.dropWhile (· ≠ '.') with
    | nil =>
      rw [knownAbove, hdrop] at h
      cases h
    | cons x s' =>
      cases s' with
      | nil =>
        rw [knownAbove, hdrop] at h
        cases h
      | cons c rest =>
        rw [hdrop] at hs hdot
        have hx : x = '.' := by simpa using hdot
        subst hx
        rcases (knownAbove_step fuel hdrop).1 h with hmem | habove
        · exact ⟨_, c :: rest, hs.symm, List.cons_ne_nil c rest, hmem⟩
        · obtain ⟨v, r, hv, hr, hmem⟩ := ih (c :: rest) habove
          rw [hv] at hs
          refine ⟨s.takeWhile (· ≠ '.') ++ '.' :: v, r, ?_, hr, hmem⟩
          simpa using hs.symm

end Known

section Covers
variable (tables : UnicodeTables) (index : ConsumedIndex)

/-- What an index knows of a normalized path: its top key, the path, or a path that ends before one
of its dots. -/
def Knows (norm : List Char) : Prop :=
  String.ofList (norm.takeWhile (· ≠ '.')) ∈ index.legacyTopKeys ∨
    String.ofList norm ∈ index.exact ∨
    ∃ t u, t ≠ [] ∧ norm = t ++ '.' :: u ∧ String.ofList t ∈ index.exact

variable {tables index}

theorem covers_iff (path : String) :
    index.covers tables path = true ↔
      Knows index (ConsumedIndex.normalize tables path).toList := by
  have hhead : headUpTo ['.'] (ConsumedIndex.normalize tables path) =
      String.ofList ((ConsumedIndex.normalize tables path).toList.takeWhile (· ≠ '.')) := by
    simp [headUpTo]
  rw [ConsumedIndex.covers, Bool.or_eq_true, Bool.or_eq_true, List.contains_iff_mem,
    List.contains_iff_mem, hhead, Knows, or_assoc, String.ofList_toList]
  apply or_congr_right
  apply or_congr_right
  constructor
  · intro h
    obtain ⟨v, r, hs, hr, hmem⟩ := knownAbove_spec _ _ h
    refine ⟨r.reverse, v.reverse, by simpa using hr, ?_, hmem⟩
    rw [List.reverse_eq_iff] at hs
    simpa using hs
  · rintro ⟨t, u, ht, hnorm, hmem⟩
    rw [hnorm, List.reverse_append, List.reverse_cons, List.append_assoc, List.singleton_append]
    apply knownAbove_of_mem
    · simpa using ht
    · simpa using hmem
    · simp
      omega

theorem not_knows_nil : ¬ Knows index [] := by
  rintro (h | h | ⟨t, u, ht, hnil, _⟩)
  · exact index.legacy_ne h
  · exact index.exact_ne h
  · cases t <;> cases hnil

theorem normalize_append (pre t : String) (ht : Breaks t.toList) :
    ConsumedIndex.normalize tables (pre ++ t) =
      tables.lower (String.ofList (stripIndices 0 pre.toList) ++
        String.ofList (stripIndices 0 t.toList)) := by
  rw [ConsumedIndex.normalize, String.toList_append,
    stripIndices_append ht pre.toList 0 (Nat.zero_le _), String.ofList_append]

theorem normalize_index (pre t : String) (ht : Breaks t.toList)
    (hstrip : stripIndices 0 t.toList = []) :
    ConsumedIndex.normalize tables (pre ++ t) = ConsumedIndex.normalize tables pre := by
  rw [normalize_append pre t ht, hstrip, String.ofList_nil, String.append_empty,
    ConsumedIndex.normalize]

theorem covers_empty : index.covers tables "" = false := by
  rw [← Bool.not_eq_true, covers_iff, ConsumedIndex.normalize]
  rw [show String.ofList (stripIndices 0 "".toList) = "" from rfl,
    (tables.lower_eq_empty "").2 rfl]
  exact not_knows_nil

theorem covers_brackets (pre : String) :
    index.covers tables (pre ++ "[]") = index.covers tables pre := by
  rw [Bool.eq_iff_iff, covers_iff, covers_iff, normalize_index pre "[]" _ (by decide)]
  intro c hc
  cases hc
  exact .inr rfl

end Covers

section Walk
variable (view : ν → Shape Scalar ν) (tables : UnicodeTables) (index : ConsumedIndex)

def kidsOf (n : String × ν) : List (String × ν) :=
  match view n.2 with
  | .dict fields => fields.map (fun f => (keyPath n.1 f.1, f.2))
  | .list xs => (xs.take maxListSamples).zipIdx.map (fun x => (indexPath n.1 x.2, x.1))
  | .scalar _ => []

def leafEntry (n : String × ν) : String × ν :=
  match view n.2 with
  | .dict _ => (if n.1 = "" then "\x7b\x7d" else n.1, n.2)
  | .list _ => (n.1 ++ "[]", n.2)
  | .scalar _ => n

def skipsNode (isCovered : String → Bool) (n : String × ν) : Bool := n.1 ≠ "" && isCovered n.1

theorem flattenPaths_eq_walk (isCovered : String → Bool) (left : Nat) (n : String × ν)
    (out : List (String × ν)) :
    flattenPaths view isCovered left n.1 n.2 out =
      PrunedWalk.walk maxPathsPerEvent (kidsOf view) (leafEntry view) (skipsNode isCovered) left n out := by
  induction left generalizing n out with
  | zero => rfl
  | succ left ih =>
    have hstep (pre : String) (v : ν) : flattenPaths view isCovered left pre v =
        PrunedWalk.walk maxPathsPerEvent (kidsOf view) (leafEntry view) (skipsNode isCovered) left
          (pre, v) := by
      funext out
      exact ih (pre, v) out
    rw [flattenPaths, PrunedWalk.walk, skipsNode, kidsOf, leafEntry]
    split
    · rfl
    · split
      · rfl
      · cases view n.2 with
        | scalar x => rfl
        | list xs =>
          cases xs with
          | nil => rfl
          | cons x xs =>
            simp only [hstep]
            exact (PrunedWalk.collect_map (fun x : ν × Nat => (indexPath n.1 x.2, x.1)) _ _ out).symm
        | dict fields =>
          cases fields with
          | nil => rfl
          | cons f fields =>
            simp only [hstep]
            exact (PrunedWalk.collect_map (fun f : String × ν => (keyPath n.1 f.1, f.2)) _ _ out).symm

/-- A leaf path of the object, lists sampled and without any bound. -/
def LeafPath (raw : ν) (p : String) : Prop :=
  ∃ path u, PrunedWalk.LeafBelow (kidsOf view) ("", raw) path u ∧ (leafEntry view u).1 = p

def walkFrom (isCovered : String → Bool) (raw : ν) : List (String × ν) :=
  flattenPaths view isCovered (maxWalkDepth + 1) "" raw []

/-- The walk over the event meets neither the bound on its depth nor the one on its paths. -/
def WithinCaps (isCovered : String → Bool) (raw : ν) : Prop :=
  PrunedWalk.shallow (kidsOf view) (skipsNode isCovered) (maxWalkDepth + 1) ("", raw) = true ∧
    (walkFrom view isCovered raw).length < maxPathsPerEvent

def BelowCovered (isCovered : String → Bool) (path : List (String × ν)) : Prop :=
  ∃ w ∈ path, skipsNode isCovered w = true

/-- The walk lists the leaf paths that nothing covers, and never too many of them. -/
structure ListsUncovered (raw : ν) : Prop where
  exactly : WithinCaps view (index.covers tables) raw → ∀ p,
    p ∈ (unknownPaths tables view index raw).map Prod.fst ↔
      LeafPath view raw p ∧ index.covers tables p = false
  capped : (unknownPaths tables view index raw).length ≤ maxPathsPerEvent

/-- What the walk decides at a node, the index says of the leaves too. -/
structure CoversAgree (raw : ν) : Prop where
  /-- The event is not an empty object that is listed under the path of a covered field. -/
  placeholder : ∀ path u, PrunedWalk.LeafBelow (kidsOf view) ("", raw) path u → u.1 = "" →
    (leafEntry view u).1 = "\x7b\x7d" → index.covers tables "\x7b\x7d" = false
  /-- A leaf below a covered node is covered, or has its path from another place too. -/
  below : ∀ path u, PrunedWalk.LeafBelow (kidsOf view) ("", raw) path u →
    BelowCovered (index.covers tables) path → index.covers tables (leafEntry view u).1 = true ∨
      ∃ path' u', PrunedWalk.LeafBelow (kidsOf view) ("", raw) path' u' ∧
        (leafEntry view u').1 = (leafEntry view u).1 ∧ ¬ BelowCovered (index.covers tables) path'

variable {view tables index}

theorem walkFrom_eq (isCovered : String → Bool) (raw : ν) :
    walkFrom view isCovered raw = PrunedWalk.walk maxPathsPerEvent (kidsOf view) (leafEntry view)
      (skipsNode isCovered) (maxWalkDepth + 1) ("", raw) [] :=
  flattenPaths_eq_walk view isCovered (maxWalkDepth + 1) ("", raw) []

theorem walkFrom_length_le (isCovered : String → Bool) (raw : ν) :
    (walkFrom view isCovered raw).length ≤ maxPathsPerEvent := by
  rw [walkFrom_eq]
  exact PrunedWalk.walk_length_le _ _ (Nat.zero_le _)

theorem not_belowCovered {isCovered : String → Bool} {path : List (String × ν)} :
    ¬ BelowCovered isCovered path ↔ ∀ w ∈ path, skipsNode isCovered w = false := by
  simp [BelowCovered]

theorem mem_walkFrom {isCovered : String → Bool} (h : WithinCaps view isCovered raw) (p : String) :
    p ∈ (walkFrom view isCovered raw).map Prod.fst ↔
      ∃ path u, PrunedWalk.LeafBelow (kidsOf view) ("", raw) path u ∧ (leafEntry view u).1 = p ∧
        ¬ BelowCovered isCovered path := by
  obtain ⟨hdepth, hcap⟩ := h
  rw [walkFrom_eq] at hcap ⊢
  simp only [List.mem_map, PrunedWalk.mem_walk _ _ hdepth hcap, PrunedWalk.Reported,
    not_belowCovered]
  constructor
  · rintro ⟨b, hnil | ⟨path, u, hleaf, rfl, hskip⟩, rfl⟩
    · cases hnil
    · exact ⟨path, u, hleaf, rfl, hskip⟩
  · rintro ⟨path, u, hleaf, rfl, hskip⟩
    exact ⟨_, .inr ⟨path, u, hleaf, rfl, hskip⟩, rfl⟩

theorem covers_leafEntry (u : String × ν) (hne : ¬ (u.1 = "" ∧ (leafEntry view u).1 = "\x7b\x7d")) :
    index.covers tables (leafEntry view u).1 = skipsNode (index.covers tables) u := by
  have hnode : skipsNode (index.covers tables) u = index.covers tables u.1 := by
    unfold skipsNode
    by_cases hu : u.1 = ""
    · simp [hu, covers_empty]
    · simp [hu]
  rw [hnode]
  unfold leafEntry at hne ⊢
  cases hv : view u.2 with
  | scalar x => rfl
  | list xs => exact covers_brackets u.1
  | dict fields =>
    by_cases hu : u.1 = ""
    · simp [hu, hv] at hne
    · simp [hu]

theorem kid_named {n w : String × ν} (h : w ∈ kidsOf view n) (hw : w.1 = "") : n.1 = "" := by
  unfold kidsOf at h
  split at h
  · obtain ⟨f, _, rfl⟩ := List.mem_map.1 h
    by_contra hn
    rw [keyPath, if_neg hn] at hw
    simp at hw
  · obtain ⟨x, _, rfl⟩ := List.mem_map.1 h
    simp [indexPath] at hw
  · cases h

theorem leafBelow_unnamed {n u : String × ν} (h : PrunedWalk.LeafBelow (kidsOf view) n path u)
    (hu : u.1 = "") : ∀ w ∈ path, w.1 = "" := by
  induction h with
  | here _ =>
    intro w hw
    rw [List.mem_singleton.1 hw]
    exact hu
  | down hkid hbelow ih =>
    have hrest := ih hu
    exact List.forall_mem_cons.2 ⟨kid_named hkid (hrest _ hbelow.head), hrest⟩

theorem listsUncovered_of_agree (h : WithinCaps view (index.covers tables) raw →
    CoversAgree view tables index raw) : ListsUncovered view tables index raw := by
  refine ⟨fun hcaps p => ?_, walkFrom_length_le _ raw⟩
  obtain ⟨hplaceholder, hbelow⟩ := h hcaps
  change p ∈ (walkFrom view (index.covers tables) raw).map Prod.fst ↔ _
  rw [mem_walkFrom hcaps]
  constructor
  · rintro ⟨path, u, hleaf, rfl, hclear⟩
    refine ⟨⟨path, u, hleaf, rfl⟩, ?_⟩
    by_cases hu : u.1 = "" ∧ (leafEntry view u).1 = "\x7b\x7d"
    · rw [hu.2]
      exact hplaceholder path u hleaf hu.1 hu.2
    · rw [covers_leafEntry u hu]
      exact not_belowCovered.1 hclear u hleaf.last
  · rintro ⟨⟨path, u, hleaf, rfl⟩, huncovered⟩
    by_cases hcovered : BelowCovered (index.covers tables) path
    · rcases hbelow path u hleaf hcovered with htrue | hother
      · rw [huncovered] at htrue
        cases htrue
      · exact hother
    · exact ⟨path, u, hleaf, rfl, hcovered⟩

theorem agree_of_listsUncovered (h : ListsUncovered view tables index raw)
    (hcaps : WithinCaps view (index.covers tables) raw) : CoversAgree view tables index raw := by
  have hmem (p : String) := (mem_walkFrom hcaps p).symm.trans (h.exactly hcaps p)
  constructor
  · intro path u hleaf hname hpath
    apply ((hmem _).1 ⟨path, u, hleaf, hpath, ?_⟩).2
    rw [not_belowCovered]
    intro w hw
    simp [skipsNode, leafBelow_unnamed hleaf hname w hw]
  · intro path u hleaf _
    cases hcovers : index.covers tables (leafEntry view u).1 with
    | true => exact .inl rfl
    | false => exact .inr ((hmem _).2 ⟨⟨path, u, hleaf, rfl⟩, hcovers⟩)

end Walk

/-- On the objects of any graph the walk that prunes lists the uncovered leaf paths, and never too
many, just when the index agrees with itself about each node and the leaves below it. -/
theorem pruned_walk_iff (view : ν → Shape Scalar ν) (tables : UnicodeTables)
    (index : ConsumedIndex) (raw : ν) :
    ListsUncovered view tables index raw ↔
      (WithinCaps view (index.covers tables) raw → CoversAgree view tables index raw) :=
  ⟨agree_of_listsUncovered, listsUncovered_of_agree⟩

/-- The tables, on ASCII text. -/
def asciiTables : UnicodeTables where
  lower s := String.ofList (s.toList.map Char.toLower)
  lower_eq_empty s := by simp
  isAlpha := Char.isAlpha
  isDigit := Char.isDigit

/-- The event `{}`, under a mapping that reads a field `{}`: the walk lists what is covered. -/
theorem empty_event_listed :
    ∃ index, consumedIndex asciiTables ["source:\"\x7b\x7d\""] = some index ∧
      WithinCaps Json.shape (index.covers asciiTables) (.obj []) ∧
      "\x7b\x7d" ∈ (unknownPaths asciiTables Json.shape index (.obj [])).map Prod.fst ∧
      LeafPath Json.shape (.obj []) "\x7b\x7d" ∧ index.covers asciiTables "\x7b\x7d" = true := by
  refine ⟨⟨["\x7b\x7d"], [], by decide, by decide⟩, by decide +kernel, ⟨by decide +kernel,
    by decide +kernel⟩, by decide +kernel, ?_, by decide +kernel⟩
  exact ⟨_, _, .here rfl, rfl⟩

end CentralOps
