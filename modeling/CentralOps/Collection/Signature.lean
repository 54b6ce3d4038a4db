import CentralOps.Collection.Suppression
import CentralOps.Lib.Words
import CentralOps.Routing.Validation

namespace CentralOps
set_option autoImplicit true

/-- The names of a `suppress_key`, as its validator and `suppress_signature` read them. -/
def suppressFields (suppressKey : String) : List String :=
  (((suppressKey.toList.splitOn ',').map pyStrip).filter (fun k => k ≠ [])).map String.ofList

def labelText (rt : Runtime) (labels : Obj) (k : String) : String :=
  rt.str ((labels.lookup k).getD (.str ""))

/-- What a `suppress_key` stands for: the texts of its canonical labels. -/
def keyValues (rt : Runtime) (suppressKey : String) (labels : Obj) : List String :=
  (suppressFields suppressKey).map (fun k => labelText rt labels (canonicalField k))

def Resolves (labels : Obj) (k : String) : Prop :=
  ∃ v, labels.lookup k = some v ∧ v ≠ .null ∧ v ≠ .str ""

def Shows (labels : Obj) (k : String) : Prop := ∃ v, labels.lookup k = some v ∧ v ≠ .str ""

/-- The texts under the names as they are written, cut at every separator of the signature. -/
def signaturePieces (rt : Runtime) (suppressKey : String) (labels : Obj) : List (List Char) :=
  (signatureParts rt labels suppressKey).flatMap (fun p => p.toList.splitOn '|')

/-- The signature of a text. -/
def signatureDigest (rt : Runtime) (text : String) : String :=
  String.ofList ((hexdigest (rt.sha256 text)).toList.take 16)

/-- The signature resolves just when a label of the key does, and tells the label values apart. -/
structure SignatureIdentifies (rt : Runtime) (suppressKey : String) (labels labels' : Obj) :
    Prop where
  resolves : ∀ m ∈ [labels, labels'], suppressSignature rt m suppressKey = none ↔
    ¬ ∃ k ∈ suppressFields suppressKey, Resolves m (canonicalField k)
  identifies : ∀ sig sig', suppressSignature rt labels suppressKey = some sig →
    suppressSignature rt labels' suppressKey = some sig' →
      (sig = sig' ↔ keyValues rt suppressKey labels = keyValues rt suppressKey labels')

/-- The names as they are written show a label just when their canonical names resolve one, and
the cut texts under them tell the maps apart just as the canonical values do. -/
structure KeyFaithful (rt : Runtime) (suppressKey : String) (labels labels' : Obj) : Prop where
  shows : ∀ m ∈ [labels, labels'], (∃ k ∈ suppressFields suppressKey, Shows m k) ↔
    ∃ k ∈ suppressFields suppressKey, Resolves m (canonicalField k)
  values : (∃ k ∈ suppressFields suppressKey, Shows labels k) →
    (∃ k ∈ suppressFields suppressKey, Shows labels' k) →
      (signaturePieces rt suppressKey labels = signaturePieces rt suppressKey labels' ↔
        keyValues rt suppressKey labels = keyValues rt suppressKey labels')

section Signature
variable {rt : Runtime} {suppressKey : String} {labels labels' : Obj}

theorem signatureParts_eq (rt : Runtime) (labels : Obj) (suppressKey : String) :
    signatureParts rt labels suppressKey =
      (suppressFields suppressKey).map (labelText rt labels) := by
  rw [signatureParts, suppressFields, List.map_map]
  rfl

theorem labelText_ne_iff (hrepr : ∀ v, rt.repr v ≠ "") (k : String) :
    labelText rt labels k ≠ "" ↔ Shows labels k := by
  unfold labelText Shows
  cases labels.lookup k with
  | none => simp [Runtime.str]
  | some v =>
    cases v with
    | str s => simp [Runtime.str]
    | _ => simp [Runtime.str, hrepr]

theorem suppressSignature_eq (hrepr : ∀ v, rt.repr v ≠ "") :
    ((∃ k ∈ suppressFields suppressKey, Shows labels k) ∧
      suppressSignature rt labels suppressKey =
        some (signatureDigest rt ("|".intercalate (signatureParts rt labels suppressKey)))) ∨
    (¬ (∃ k ∈ suppressFields suppressKey, Shows labels k) ∧
      suppressSignature rt labels suppressKey = none) := by
  have hall : (signatureParts rt labels suppressKey).all (fun p => p = "") = true ↔
      ¬ ∃ k ∈ suppressFields suppressKey, Shows labels k := by
    simp only [signatureParts_eq, List.all_eq_true, List.forall_mem_map, decide_eq_true_eq,
      ← labelText_ne_iff hrepr, not_exists, not_and, not_not]
  unfold suppressSignature
  dsimp only
  split
  · next h => exact .inr ⟨hall.1 h, rfl⟩
  · next h => exact .inl ⟨not_not.1 fun hnone => h (hall.2 hnone), rfl⟩

theorem suppressSignature_eq_none_iff (hrepr : ∀ v, rt.repr v ≠ "") :
    suppressSignature rt labels suppressKey = none ↔
      ¬ ∃ k ∈ suppressFields suppressKey, Shows labels k := by
  obtain ⟨hshown, hsig⟩ | ⟨hshown, hsig⟩ :=
    @suppressSignature_eq rt suppressKey labels hrepr
  · simp [hsig, hshown]
  · simp only [hsig, hshown, not_false_eq_true]

theorem signatureParts_ne_nil (h : ∃ k ∈ suppressFields suppressKey, Shows labels k) :
    signatureParts rt labels suppressKey ≠ [] := by
  obtain ⟨k, hk, -⟩ := h
  rw [signatureParts_eq]
  exact List.ne_nil_of_mem (List.mem_map_of_mem hk)

theorem signatureText_mark (hne : signatureParts rt labels suppressKey ≠ []) :
    ("|".intercalate (signatureParts rt labels suppressKey)).toList ++ ['|'] =
      (signaturePieces rt suppressKey labels).flatMap (fun w => w ++ ['|']) := by
  have hmarked : ∀ p : String, p.toList ++ ['|'] =
      (p.toList.splitOn '|').flatMap (fun w => w ++ ['|']) := fun p => Words.append_mark '|' p.toList
  rw [String.toList_intercalate]
  have hjoin := Words.intercalate_mark '|'
    (fun h => hne (List.map_eq_nil_iff.1 h) :
      (signatureParts rt labels suppressKey).map String.toList ≠ [])
  refine hjoin.trans ?_
  rw [signaturePieces, List.flatMap_assoc, List.flatMap_map]
  simp only [← hmarked]

theorem mark_notMem_piece (hw : w ∈ signaturePieces rt suppressKey labels) : '|' ∉ w := by
  obtain ⟨p, -, hw⟩ := List.mem_flatMap.1 hw
  intro hin
  rw [List.splitOn_eq_splitOnP] at hw
  have hfalse := Words.splitOnP_forall _ p.toList w hw '|' hin
  simp at hfalse

theorem signatureText_inj (h : ∃ k ∈ suppressFields suppressKey, Shows labels k)
    (h' : ∃ k ∈ suppressFields suppressKey, Shows labels' k) :
    "|".intercalate (signatureParts rt labels suppressKey) =
        "|".intercalate (signatureParts rt labels' suppressKey) ↔
      signaturePieces rt suppressKey labels = signaturePieces rt suppressKey labels' := by
  rw [← Words.flatMap_mark_inj (fun w hw => mark_notMem_piece hw) (fun w hw => mark_notMem_piece hw),
    ← signatureText_mark (signatureParts_ne_nil h), ← signatureText_mark (signatureParts_ne_nil h'),
    List.append_left_inj, String.toList_inj]

end Signature

/-- A signature identifies the label values of its key just when the key is faithful to the two
maps, if the digest tells their texts apart. -/
theorem suppress_signature_identifies_iff (rt : Runtime) (suppressKey : String)
    (labels labels' : Obj) (hrepr : ∀ v, rt.repr v ≠ "")
    (hdigest : signatureDigest rt ("|".intercalate (signatureParts rt labels suppressKey)) =
        signatureDigest rt ("|".intercalate (signatureParts rt labels' suppressKey)) →
      "|".intercalate (signatureParts rt labels suppressKey) =
        "|".intercalate (signatureParts rt labels' suppressKey)) :
    SignatureIdentifies rt suppressKey labels labels' ↔
      KeyFaithful rt suppressKey labels labels' := by
  have hnone : ∀ m, suppressSignature rt m suppressKey = none ↔
      ¬ ∃ k ∈ suppressFields suppressKey, Shows m k :=
    fun m => suppressSignature_eq_none_iff hrepr
  have hsame : (∃ k ∈ suppressFields suppressKey, Shows labels k) →
      (∃ k ∈ suppressFields suppressKey, Shows labels' k) →
      ∀ sig sig', suppressSignature rt labels suppressKey = some sig →
        suppressSignature rt labels' suppressKey = some sig' → (sig = sig' ↔
          signaturePieces rt suppressKey labels = signaturePieces rt suppressKey labels') := by
    intro hshown hshown' sig sig' hsig hsig'
    obtain ⟨-, heq⟩ | ⟨hhidden, -⟩ := @suppressSignature_eq rt suppressKey labels hrepr
    · obtain ⟨-, heq'⟩ | ⟨hhidden, -⟩ := @suppressSignature_eq rt suppressKey labels' hrepr
      · obtain rfl := Option.some.inj (hsig.symm.trans heq)
        obtain rfl := Option.some.inj (hsig'.symm.trans heq')
        rw [← signatureText_inj hshown hshown']
        exact ⟨hdigest, fun h => congrArg _ h⟩
      · exact absurd hshown' hhidden
    · exact absurd hshown hhidden
  constructor
  · intro h
    constructor
    · intro m hm
      have hiff := h.resolves m hm
      rw [hnone m] at hiff
      exact not_iff_not.1 hiff
    · intro hshown hshown'
      obtain ⟨sig, hsig⟩ := Option.ne_none_iff_exists'.1 ((hnone labels).not.2 (not_not.2 hshown))
      obtain ⟨sig', hsig'⟩ :=
        Option.ne_none_iff_exists'.1 ((hnone labels').not.2 (not_not.2 hshown'))
      rw [← hsame hshown hshown' sig sig' hsig hsig']
      exact h.identifies sig sig' hsig hsig'
  · intro h
    constructor
    · intro m hm
      rw [hnone m, h.shows m hm]
    · intro sig sig' hsig hsig'
      have hshown : ∃ k ∈ suppressFields suppressKey, Shows labels k := by
        by_contra hhidden
        rw [(hnone labels).2 hhidden] at hsig
        cases hsig
      have hshown' : ∃ k ∈ suppressFields suppressKey, Shows labels' k := by
        by_contra hhidden
        rw [(hnone labels').2 hhidden] at hsig'
        cases hsig'
      rw [hsame hshown hshown' sig sig' hsig hsig']
      exact h.values hshown hshown'

section Example

/-- A library that knows the digests of four texts. -/
def fourDigests : Runtime :=
  { Runtime.ascii with
    repr := fun v => if v = .null then "None" else "7"
    sha256 := fun s =>
      if s = "sophos" then 0xde882d5b65291a1b92677b2bcaa6840313236a51a8eefb8e1f6497a8adb0705a
      else if s = "wazuh" then 0x88195721bd4c437cf5e1b197f1513b5610cc96b2d919b348e38192da5ea45487
      else if s = "None" then 0xdc937b59892604f5a86ac96936cd7ff09e25f18ae6b758e8014a24c7fa039e91
      else if s = "a|b|c" then 0xa52dd81bfd5e4e66d96b9f598382f6cbf8c5c3897654e6ae9055e03620fcf38e
      else 0 }

theorem fourDigests_repr (v : Json) : fourDigests.repr v ≠ "" := by
  change (if v = .null then "None" else "7") ≠ ""
  split
  · decide
  · decide

/-- Two vendors have two signatures. -/
theorem vendors_identified :
    suppressSignature fourDigests [("vendor", .str "sophos")] "vendor" ≠
        suppressSignature fourDigests [("vendor", .str "wazuh")] "vendor" ∧
      (SignatureIdentifies fourDigests "vendor" [("vendor", .str "sophos")]
          [("vendor", .str "wazuh")] ↔
        KeyFaithful fourDigests "vendor" [("vendor", .str "sophos")]
          [("vendor", .str "wazuh")]) := by
  refine ⟨by decide +kernel, ?_⟩
  exact suppress_signature_identifies_iff fourDigests "vendor" _ _ fourDigests_repr
    fun h => absurd h (by decide +kernel)

/-- An alias that is not resolved, a null that is, and two tuples with one joined text. -/
theorem signatures_misidentify :
    (validateSuppressKey fourDigests (some "org_id") = none ∧
      ¬ SignatureIdentifies fourDigests "org_id" [("organization_id", .int 7)]
        [("organization_id", .int 7)]) ∧
    (validateSuppressKey fourDigests (some "vendor") = none ∧
      ¬ SignatureIdentifies fourDigests "vendor" [("vendor", .null)] [("vendor", .null)]) ∧
    (validateSuppressKey fourDigests (some "vendor,stream") = none ∧
      ¬ SignatureIdentifies fourDigests "vendor,stream"
        [("vendor", .str "a|b"), ("stream", .str "c")]
        [("vendor", .str "a"), ("stream", .str "b|c")]) := by
  refine ⟨⟨by decide +kernel, ?_⟩, ⟨by decide +kernel, ?_⟩, by decide +kernel, ?_⟩
  · intro h
    have hnone : suppressSignature fourDigests [("organization_id", .int 7)] "org_id" = none := by
      decide +kernel
    have hfields : suppressFields "org_id" = ["org_id"] := by decide +kernel
    apply (h.resolves _ List.mem_cons_self).1 hnone
    rw [hfields]
    exact ⟨"org_id", List.mem_cons_self, .int 7, by decide, by decide, by decide⟩
  · intro h
    have hsome : suppressSignature fourDigests [("vendor", .null)] "vendor" ≠ none := by
      decide +kernel
    have hfields : suppressFields "vendor" = ["vendor"] := by decide +kernel
    apply hsome
    rw [h.resolves _ List.mem_cons_self, hfields]
    rintro ⟨k, hk, v, hv, hnull, -⟩
    obtain rfl := List.mem_singleton.1 hk
    exact hnull (Option.some.inj hv).symm
  · intro h
    have hsame : suppressSignature fourDigests [("vendor", .str "a|b"), ("stream", .str "c")]
          "vendor,stream" =
        suppressSignature fourDigests [("vendor", .str "a"), ("stream", .str "b|c")]
          "vendor,stream" := by decide +kernel
    have hsome : suppressSignature fourDigests [("vendor", .str "a|b"), ("stream", .str "c")]
        "vendor,stream" ≠ none := by decide +kernel
    obtain ⟨sig, hsig⟩ := Option.ne_none_iff_exists'.1 hsome
    have hvalues := (h.identifies sig sig hsig (hsame.symm.trans hsig)).1 rfl
    revert hvalues
    decide +kernel

end Example

end CentralOps
