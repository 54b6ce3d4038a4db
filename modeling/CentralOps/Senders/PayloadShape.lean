import CentralOps.Lib.Words
import CentralOps.Json

namespace CentralOps
set_option autoImplicit true

/-- The characters that `_NAO_SLUG` matches. -/
def naoSlug (c : Char) : Bool := !('a' ≤ c && c ≤ 'z' || '0' ≤ c && c ≤ '9')

section Label
variable (rt : Runtime)

/-- `bruto.strip().lower()`. -/
def reduzido (bruto : String) : List Char := (rt.lower (String.ofList (pyStrip bruto.toList))).toList

def slugificarRotulo (bruto : String) : String :=
  String.ofList (Words.trim '_' (Words.squash naoSlug '_' false (reduzido rt bruto)))

def texto : Json → String
  | .int n => toString n
  | .float x => rt.repr (.float x)
  | .str s => slugificarRotulo rt s
  | .null | .bool _ | .list _ | .obj _ => ""

def organizacao (block : Obj) : String :=
  let slug := texto rt (block.getN "organization_slug")
  if slug ≠ "" then slug
  else
    let oid := texto rt (block.getN "organization_id")
    if oid ≠ "" then "org_" ++ oid else ""

def juntar (partes : List String) : String :=
  if partes.all (· ≠ "") then "_".intercalate partes else ""

/-- The label of an envelope with the block `_centralops`. -/
def rotuloDoBloco (block : Obj) : String → String
  | "organization" => organizacao rt block
  | "vendor" => texto rt (block.getN "vendor")
  | "platform" => texto rt (block.getN "platform")
  | "integration" =>
    let iid := texto rt (block.getN "integration_id")
    if iid ≠ "" then "integration_" ++ iid else ""
  | "stream" => texto rt (block.getN "stream")
  | "event_type" => texto rt (block.getN "event_type")
  | "organization_vendor" => juntar [organizacao rt block, texto rt (block.getN "vendor")]
  | "organization_stream" => juntar [organizacao rt block, texto rt (block.getN "stream")]
  | _ => ""

def derivarValor (envelope : Obj) (origem : String) : String :=
  match envelope.getN "_centralops" with
  | .obj block => rotuloDoBloco rt block origem
  | _ => ""

def rowFieldNaoResolvido : String := "unresolved"

/-- Each derived column: its label, the literal of the column, or `unresolved`. -/
def derivarRowFields (envelope : Obj) (rowFieldsFrom estaticos : Dict String String) :
    Dict String String :=
  rowFieldsFrom.mapEntries fun coluna origem =>
    let valor := derivarValor rt envelope origem
    let literal := (estaticos.get? coluna).getD ""
    if valor ≠ "" then valor else if literal ≠ "" then literal else rowFieldNaoResolvido

def textWords (s : String) : List (List Char) := Words.runs naoSlug (reduzido rt s)

def numberWords (s : String) : List (List Char) := if s = "" then [] else s.toList.splitOn '_'

def partWords : Json → List (List Char)
  | .int n => numberWords (toString n)
  | .float x => numberWords (rt.repr (.float x))
  | .str s => textWords rt s
  | .null | .bool _ | .list _ | .obj _ => []

/-- The words of the slug, or `org` and those of the id. -/
def organizationWords (block : Obj) : List (List Char) :=
  if partWords rt (block.getN "organization_slug") ≠ [] then
    partWords rt (block.getN "organization_slug")
  else if partWords rt (block.getN "organization_id") ≠ [] then
    "org".toList :: partWords rt (block.getN "organization_id")
  else []

def joinedWords (ws vs : List (List Char)) : List (List Char) :=
  if ws ≠ [] ∧ vs ≠ [] then ws ++ vs else []

def blockWords (block : Obj) : String → List (List Char)
  | "organization" => organizationWords rt block
  | "organization_vendor" =>
    joinedWords (organizationWords rt block) (partWords rt (block.getN "vendor"))
  | "organization_stream" =>
    joinedWords (organizationWords rt block) (partWords rt (block.getN "stream"))
  | _ => []

/-- The words of the parts that a label of the organisation is derived from, one after another;
none where a part has none. -/
def labelWords (envelope : Obj) (origem : String) : List (List Char) :=
  match envelope.getN "_centralops" with
  | .obj block => blockWords rt block origem
  | _ => []

/-- The origins that name the tenant. -/
def tenantSources : List String := ["organization", "organization_vendor", "organization_stream"]

/-- The two envelopes are not stored under one label. -/
def Isolates (origem : String) (e e' : Obj) : Prop :=
  derivarValor rt e origem ≠ "" → derivarValor rt e' origem ≠ "" →
    derivarValor rt e origem ≠ derivarValor rt e' origem

end Label

structure Spelled (s : String) (ws : List (List Char)) : Prop where
  text : s.toList = ['_'].intercalate ws
  free : ∀ w ∈ ws, '_' ∉ w
  empty : s = "" ↔ ws = []

namespace Spelled

theorem nil : Spelled "" [] := ⟨rfl, nofun, by simp⟩

theorem eq_iff (h : Spelled s ws) (h' : Spelled s' ws') (hne : ws ≠ []) (hne' : ws' ≠ []) :
    s = s' ↔ ws = ws' := by
  rw [← Words.intercalate_inj h.free h'.free hne hne', ← h.text, ← h'.text, String.toList_inj]

theorem isolates_iff (h : Spelled s ws) (h' : Spelled s' ws') :
    (s ≠ "" → s' ≠ "" → s ≠ s') ↔ (ws ≠ [] → ws ≠ ws') := by
  rw [ne_eq, ne_eq, h.empty, h'.empty]
  constructor
  · intro hall hne he
    have hne' : ws' ≠ [] := he ▸ hne
    exact hall hne hne' ((h.eq_iff h' hne hne').2 he)
  · intro hall hne hne' he
    exact hall hne ((h.eq_iff h' hne hne').1 he)

theorem append (h : Spelled s ws) (h' : Spelled s' ws') (hne : ws ≠ []) (hne' : ws' ≠ []) :
    Spelled (s ++ "_" ++ s') (ws ++ ws') where
  text := by
    obtain ⟨w, us, rfl⟩ := List.exists_cons_of_ne_nil hne
    obtain ⟨w', us', rfl⟩ := List.exists_cons_of_ne_nil hne'
    rw [String.toList_append, String.toList_append, h.text, h'.text, List.cons_append,
      Words.intercalate_cons, Words.intercalate_cons, Words.intercalate_cons, List.flatMap_append,
      List.flatMap_cons, List.append_assoc, List.append_assoc]
    rfl
  free w hw := (List.mem_append.1 hw).elim (h.free w) (h'.free w)
  empty := by
    have hs : s ≠ "" := fun he => hne (h.empty.1 he)
    simp [hne]

theorem number (s : String) : Spelled s (numberWords s) := by
  rw [numberWords]
  split
  · next he =>
    rw [he]
    exact nil
  · next he =>
    refine ⟨(List.intercalate_splitOn '_').symm, fun w hw hin => ?_, ?_⟩
    · rw [List.splitOn_eq_splitOnP] at hw
      exact Bool.false_ne_true ((Words.splitOnP_forall _ _ w hw '_' hin).symm.trans (beq_self_eq_true _))
    · exact iff_of_false he (by rw [List.splitOn_eq_splitOnP]; exact List.splitOnP_ne_nil _ _)

theorem slug (rt : Runtime) (s : String) : Spelled (slugificarRotulo rt s) (textWords rt s) where
  text := by
    rw [slugificarRotulo, String.toList_ofList, Words.trim_squash (by decide)]
    rfl
  free w hw := Words.notMem_runs (by decide) hw
  empty := by
    rw [← String.toList_inj, slugificarRotulo, String.toList_ofList,
      Words.trim_squash (by decide)]
    cases hw : textWords rt s with
    | nil => rw [textWords] at hw; rw [hw]; simp
    | cons w ws =>
      have hne : w ≠ [] := Words.runs_ne_nil (hw ▸ List.mem_cons_self : w ∈ textWords rt s)
      rw [textWords] at hw
      rw [hw, Words.intercalate_cons]
      simp [hne]

theorem part (rt : Runtime) (v : Json) : Spelled (texto rt v) (partWords rt v) := by
  cases v with
  | int n => exact number _
  | float x => exact number _
  | str s => exact slug rt s
  | null => exact nil
  | bool b => exact nil
  | list xs => exact nil
  | obj o => exact nil

theorem organization (rt : Runtime) (block : Obj) :
    Spelled (organizacao rt block) (organizationWords rt block) := by
  have hslug := part rt (block.getN "organization_slug")
  have hid := part rt (block.getN "organization_id")
  rw [organizacao, organizationWords]
  by_cases hs : partWords rt (block.getN "organization_slug") = []
  · rw [if_neg (not_not.2 (hslug.empty.2 hs)), if_neg (not_not.2 hs)]
    by_cases hi : partWords rt (block.getN "organization_id") = []
    · rw [if_neg (not_not.2 (hid.empty.2 hi)), if_neg (not_not.2 hi)]
      exact nil
    · rw [if_pos (fun he => hi (hid.empty.1 he)), if_pos hi]
      have horg : Spelled "org" ["org".toList] := ⟨rfl, by decide, by simp⟩
      exact horg.append hid (by simp) hi
  · rw [if_pos (fun he => hs (hslug.empty.1 he)), if_pos hs]
    exact hslug

theorem joined (h : Spelled s ws) (h' : Spelled s' ws') :
    Spelled (juntar [s, s']) (joinedWords ws ws') := by
  by_cases hne : ws ≠ [] ∧ ws' ≠ []
  · have hall : ([s, s'].all (· ≠ "")) = true := by
      simp [h.empty, h'.empty, hne.1, hne.2]
    rw [juntar, if_pos hall, joinedWords, if_pos hne]
    simpa using h.append h' hne.1 hne.2
  · have hall : ¬ ([s, s'].all (· ≠ "")) = true := by
      simpa [h.empty, h'.empty] using hne
    rw [juntar, if_neg hall, joinedWords, if_neg hne]
    exact nil

end Spelled

theorem derivarValor_spelled (rt : Runtime) (h : origem ∈ tenantSources) (envelope : Obj) :
    Spelled (derivarValor rt envelope origem) (labelWords rt envelope origem) := by
  rw [derivarValor, labelWords]
  cases envelope.getN "_centralops" with
  | obj block =>
    have horg := Spelled.organization rt block
    simp only [tenantSources, List.mem_cons, List.not_mem_nil, or_false] at h
    obtain rfl | rfl | rfl := h
    · exact horg
    · exact horg.joined (.part rt _)
    · exact horg.joined (.part rt _)
  | null => exact .nil
  | bool b => exact .nil
  | int n => exact .nil
  | float x => exact .nil
  | str s => exact .nil
  | list xs => exact .nil

/-- Two envelopes have different labels exactly where the words of the parts of one, taken one
after another, are not those of the other. -/
theorem derived_labels_isolate_iff (rt : Runtime) (origem : String) (h : origem ∈ tenantSources)
    (e e' : Obj) :
    Isolates rt origem e e' ↔
      (labelWords rt e origem ≠ [] → labelWords rt e origem ≠ labelWords rt e' origem) :=
  (derivarValor_spelled rt h e).isolates_iff (derivarValor_spelled rt h e')

/-- An envelope of an organisation with an event of a stream. -/
def labelled (id : Int) (slug stream : String) : Obj :=
  [("_centralops", .obj
    [("organization_id", .int id), ("organization_slug", .str slug), ("stream", .str stream)])]

theorem derived_labels_isolate_iff_acme :
    Isolates Runtime.ascii "organization_stream" (labelled 1 "acme" "alerts")
      (labelled 2 "acme-eu" "alerts") :=
  (derived_labels_isolate_iff Runtime.ascii _ (by decide) _ _).2 (by decide +kernel)

theorem derived_labels_collide :
    ¬ Isolates Runtime.ascii "organization_stream" (labelled 1 "acme" "eu_alerts")
      (labelled 2 "acme-eu" "alerts") := by
  have hsame : derivarValor Runtime.ascii (labelled 1 "acme" "eu_alerts") "organization_stream" =
      derivarValor Runtime.ascii (labelled 2 "acme-eu" "alerts") "organization_stream" := by
    decide +kernel
  have hsome : derivarValor Runtime.ascii (labelled 1 "acme" "eu_alerts") "organization_stream" ≠
      "" := by decide +kernel
  exact fun h => h hsome (hsame ▸ hsome) hsame

end CentralOps
