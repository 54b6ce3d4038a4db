import CentralOps.Routing.Copies
import CentralOps.Routing.PostImage

namespace CentralOps
set_option autoImplicit true

/-- Texts that differ in hexadecimal digits behind their first seven characters only, as two
pseudonyms do. -/
def Resembles (s s' : List Char) : Prop :=
  ∀ i, s[i]? = s'[i]? ∨
    7 ≤ i ∧ ∃ c c', s[i]? = some c ∧ s'[i]? = some c' ∧ HexDigit c ∧ HexDigit c'

section Resembles
variable {s s' : List Char}

theorem Resembles.refl (s : List Char) : Resembles s s := fun _ => .inl rfl

theorem Resembles.isSome_eq (h : Resembles s s') (i : Nat) : s[i]?.isSome = s'[i]?.isSome := by
  obtain heq | ⟨-, c, c', hc, hc', -⟩ := h i
  · rw [heq]
  · rw [hc, hc']
    rfl

theorem Resembles.length_eq (h : Resembles s s') : s.length = s'.length := by
  have hle : ∀ {s s' : List Char}, Resembles s s' → s'.length ≤ s.length := by
    intro s s' h
    have hsome := h.isSome_eq s.length
    rw [List.getElem?_eq_none le_rfl] at hsome
    by_contra hlt
    rw [List.getElem?_eq_getElem (not_le.1 hlt)] at hsome
    cases hsome
  have hsymm : Resembles s' s := by
    intro i
    obtain heq | ⟨hi, c, c', hc, hc', hhex, hhex'⟩ := h i
    · exact .inl heq.symm
    · exact .inr ⟨hi, c', c, hc', hc, hhex', hhex⟩
  exact le_antisymm (hle hsymm) (hle h)

/-- Two pseudonyms resemble each other. -/
theorem resembles_digests (d d' : BitVec 256) :
    Resembles ("sha256:" ++ hexdigest d).toList ("sha256:" ++ hexdigest d').toList := by
  intro i
  have hmark : ∀ d : BitVec 256, ("sha256:" ++ hexdigest d).toList =
      pseudonymMark ++ (hexdigest d).toList := fun d => String.toList_append
  have hseven : pseudonymMark.length = 7 := by decide
  rw [hmark, hmark]
  by_cases hi : i < 7
  · left
    rw [List.getElem?_append_left (hseven ▸ hi), List.getElem?_append_left (hseven ▸ hi)]
  · rw [List.getElem?_append_right (hseven ▸ not_lt.1 hi),
      List.getElem?_append_right (hseven ▸ not_lt.1 hi), hseven]
    have hlen : ∀ d : BitVec 256, (hexdigest d).toList.length = 64 := fun d => by
      rw [String.length_toList, hexdigest_length]
    by_cases hlt : i - 7 < 64
    · right
      refine ⟨not_lt.1 hi, _, _, List.getElem?_eq_getElem ((hlen d).symm ▸ hlt),
        List.getElem?_eq_getElem ((hlen d').symm ▸ hlt), ?_, ?_⟩
      · exact hexdigest_hex d _ (List.getElem_mem _)
      · exact hexdigest_hex d' _ (List.getElem_mem _)
    · left
      rw [List.getElem?_eq_none (by rw [hlen]; omega), List.getElem?_eq_none (by rw [hlen]; omega)]

theorem Resembles.take_append (h : Resembles s s') (n : Nat) (tail : List Char) :
    Resembles (s.take n ++ tail) (s'.take n ++ tail) := by
  intro i
  have hlen : (s.take n).length = (s'.take n).length := by
    rw [List.length_take, List.length_take, h.length_eq]
  by_cases hi : i < (s.take n).length
  · rw [List.getElem?_append_left hi, List.getElem?_append_left (hlen ▸ hi)]
    rw [List.length_take, lt_min_iff] at hi
    rw [List.getElem?_take_of_lt hi.1, List.getElem?_take_of_lt hi.1]
    exact h i
  · left
    rw [List.getElem?_append_right (not_lt.1 hi), List.getElem?_append_right (hlen ▸ not_lt.1 hi),
      hlen]

theorem Resembles.mark_iff (h : Resembles s s') : pseudonymMark <+: s ↔ pseudonymMark <+: s' := by
  have htake : s.take 7 = s'.take 7 := by
    apply List.ext_getElem?
    intro i
    rw [List.getElem?_take, List.getElem?_take]
    split
    · next hi =>
      obtain heq | ⟨hle, -⟩ := h i
      · exact heq
      · omega
    · rfl
  have hseven : pseudonymMark.length = 7 := by decide
  rw [List.prefix_iff_eq_take, List.prefix_iff_eq_take, hseven, htake]

theorem Resembles.eq_iff (h : Resembles s s') {sep : Char} (hsep : ¬ HexDigit sep) (i : Nat) :
    s[i]? = some sep ↔ s'[i]? = some sep := by
  obtain heq | ⟨-, c, c', hc, hc', hhex, hhex'⟩ := h i
  · rw [heq]
  · rw [hc, hc', Option.some.injEq, Option.some.injEq]
    constructor
    · rintro rfl
      exact absurd hhex hsep
    · rintro rfl
      exact absurd hhex' hsep

theorem Resembles.mem_iff (h : Resembles s s') {sep : Char} (hsep : ¬ HexDigit sep) :
    sep ∈ s ↔ sep ∈ s' := by
  rw [List.mem_iff_getElem?, List.mem_iff_getElem?]
  exact exists_congr fun i => h.eq_iff hsep i

theorem Resembles.affixes (h : Resembles s s') {kp ks : Nat} (hkeep : kp + ks < s.length)
    (c : Char) :
    Resembles (s.take kp ++ List.replicate (s.length - kp - ks) c ++ s.drop (s.length - ks))
      (s'.take kp ++ List.replicate (s'.length - kp - ks) c ++ s'.drop (s'.length - ks)) := by
  intro i
  rw [affixes_getElem? hkeep, affixes_getElem? (h.length_eq ▸ hkeep), h.length_eq]
  split
  · exact .inl rfl
  · exact h i

theorem Resembles.separators (h : Resembles s s') {sep : Char} (hsep : ¬ HexDigit sep) :
    List.Forall₂ (fun c c' => c = sep ↔ c' = sep) s s' := by
  rw [List.forall₂_iff_get]
  refine ⟨h.length_eq, ?_⟩
  intro i hi hi'
  have hiff := h.eq_iff hsep i
  rwa [List.getElem?_eq_getElem hi, List.getElem?_eq_getElem hi', Option.some.injEq,
    Option.some.injEq] at hiff

theorem Resembles.maskGroups (h : Resembles s s') (keep : Nat) (c : Char) {sep : Char}
    (hsep : ¬ HexDigit sep) :
    Resembles (maskGroups keep c sep s).toList (maskGroups keep c sep s').toList := by
  have hkeep : ∀ s : List Char, (CentralOps.maskGroups keep c sep s).toList =
      if (s.splitOn sep).length ≤ keep then maskSentinel.toList
      else Words.keepFirst sep keep [c] s := by
    intro s
    rw [CentralOps.maskGroups]
    split
    · rfl
    · rw [joinWith_toList]
      rfl
  have hsame := h.separators hsep
  rw [hkeep, hkeep, Words.splitOn_length_eq hsame]
  split
  · exact .refl _
  · obtain ⟨n, tail, hs, hs'⟩ := Words.keepFirst_eq_take hsame keep [c]
    rw [hs, hs']
    exact h.take_append n tail

theorem dot_notHex : ¬ HexDigit '.' := by
  rintro ⟨d, -, hd⟩
  exact Nat.digitChar_ne '.' (by decide) hd.symm

theorem colon_notHex : ¬ HexDigit ':' := by
  rintro ⟨d, -, hd⟩
  exact Nat.digitChar_ne ':' (by decide) hd.symm

end Resembles

section Transform
variable (rt : Runtime) {action : RedactionAction}

/-- An action either leaves both of two values, or puts texts that resemble each other in their
places. -/
def TransformsAlike (action : RedactionAction) (value value' : Json) : Prop :=
  (action.transform rt value = none ∧ action.transform rt value' = none) ∨
    ∃ s s', action.transform rt value = some (.str s) ∧
      action.transform rt value' = some (.str s') ∧ Resembles s.toList s'.toList

theorem objects_transform (h : action ≠ .dropField) (o o' : Obj) :
    TransformsAlike rt action (.obj o) (.obj o') := by
  cases action with
  | mask fixedLen c => exact .inr ⟨_, _, rfl, rfl, .refl _⟩
  | hash salt => exact .inr ⟨_, _, rfl, rfl, resembles_digests _ _⟩
  | octets keep c => exact .inr ⟨_, _, rfl, rfl, .refl _⟩
  | affixes kp ks c => exact .inr ⟨_, _, rfl, rfl, .refl _⟩
  | dropField => exact absurd rfl h

theorem texts_transform (h : action ≠ .dropField) {s s' : String}
    (hs : Resembles s.toList s'.toList) : TransformsAlike rt action (.str s) (.str s') := by
  cases action with
  | mask fixedLen c => exact .inr ⟨_, _, rfl, rfl, .refl _⟩
  | hash salt =>
    by_cases hmark : pseudonymMark <+: s.toList
    · left
      exact ⟨hashValue_marked rt salt hmark, hashValue_marked rt salt (hs.mark_iff.1 hmark)⟩
    · right
      have hmark' : ¬ pseudonymMark <+: s'.toList := fun h' => hmark (hs.mark_iff.2 h')
      exact ⟨_, _, hashValue_unmarked rt salt hmark, hashValue_unmarked rt salt hmark',
        resembles_digests _ _⟩
  | octets keep c =>
    right
    simp only [RedactionAction.transform, octetsValue, hs.mem_iff dot_notHex,
      hs.mem_iff colon_notHex]
    split
    · exact ⟨_, _, rfl, rfl, hs.maskGroups keep c dot_notHex⟩
    · split
      · exact ⟨_, _, rfl, rfl, hs.maskGroups keep c colon_notHex⟩
      · exact ⟨_, _, rfl, rfl, .refl _⟩
  | affixes kp ks c =>
    right
    simp only [RedactionAction.transform, affixesValue, hs.length_eq]
    split
    · exact ⟨_, _, rfl, rfl, .refl _⟩
    · next hkeep =>
      refine ⟨_, _, rfl, rfl, ?_⟩
      have haffixes := hs.affixes (hs.length_eq ▸ not_le.1 hkeep) c
      rw [hs.length_eq] at haffixes
      rw [String.toList_ofList, String.toList_ofList]
      exact haffixes
  | dropField => exact absurd rfl h

end Transform

/-- Objects that differ at one location: at the target, or in texts above it that resemble each
other. -/
def Twins (target : List String) (o o' : Obj) : Prop :=
  ∃ loc v v', loc ≠ [] ∧ loc <+: target ∧ valueAt (.obj o) loc = some v ∧
    o' = writeAt o loc (some v') ∧
    (loc = target ∨ ∃ s s', v = .str s ∧ v' = .str s' ∧ Resembles s.toList s'.toList)

def Alike (target : List String) (st st' : Obj × List String) : Prop :=
  st.2 = st'.2 ∧ (st.1 = st'.1 ∨ Twins target st.1 st'.1)

section Steps
variable (rt : Runtime) {rule : CompiledRedactionRule} {o : Obj} {loc : List String} {v v' : Json}
  (marks : List String)

theorem applyRule_beside (v' : Json) (hv : valueAt (.obj o) loc = some v) (h : Apart rule.pathParts loc) :
    ∃ o₁, applyRule rt (o, marks) rule = (o₁, (applyRule rt (o, marks) rule).2) ∧
      valueAt (.obj o₁) loc = some v ∧
      applyRule rt (writeAt o loc (some v'), marks) rule =
        (writeAt o₁ loc (some v'), (applyRule rt (o, marks) rule).2) := by
  have hnav : navigate (writeAt o loc (some v')) rule.pathParts = navigate o rule.pathParts :=
    navigate_writeAt_apart rule.pathParts_ne hv h
  rw [applyRule, applyRule, hnav]
  cases hwrite : ruleWrite rt rule (navigate o rule.pathParts) with
  | none => exact ⟨o, rfl, hv, rfl⟩
  | some write =>
    obtain ⟨loc', w, mark⟩ := write
    have hapart := (ruleWrite_touches hwrite).place_apart hv h
    refine ⟨writeAt o loc' w, rfl, ?_, ?_⟩
    · rw [valueAt_writeAt_apart ⟨hapart.2, hapart.1⟩, hv]
    · rw [Prod.mk.injEq]
      exact ⟨writeAt_comm v' w hv hapart, rfl⟩

theorem applyRule_drops (hdrop : rule.action = .dropField) (hpre : rule.pathParts <+: loc)
    {x x' : Json} (hx : valueAt (.obj o) rule.pathParts = some x)
    (hx' : valueAt (.obj (writeAt o loc (some v'))) rule.pathParts = some x') :
    applyRule rt (o, marks) rule = applyRule rt (writeAt o loc (some v'), marks) rule := by
  rw [applyRule, applyRule, (navigate_ok_iff rule.pathParts_ne).2 ⟨rfl, hx⟩,
    (navigate_ok_iff rule.pathParts_ne).2 ⟨rfl, hx'⟩, ruleWrite_drop rt hdrop,
    ruleWrite_drop rt hdrop]
  dsimp only
  rw [writeAt_over o v' none rule.pathParts_ne hpre]

theorem applyRule_writes (hdrop : rule.action ≠ .dropField) (hpre : rule.pathParts <+: loc)
    {x x' w w' : Json} (hx : valueAt (.obj o) rule.pathParts = some x)
    (hx' : valueAt (.obj (writeAt o loc (some v'))) rule.pathParts = some x')
    (hw : rule.action.transform rt x = some w) (hw' : rule.action.transform rt x' = some w') :
    ∃ mark, applyRule rt (o, marks) rule =
        (writeAt o rule.pathParts (some w), marks ++ [mark]) ∧
      applyRule rt (writeAt o loc (some v'), marks) rule =
        (writeAt o rule.pathParts (some w'), marks ++ [mark]) := by
  refine ⟨rule.pathStr ++ ":" ++ rule.action.name, ?_, ?_⟩
  · rw [applyRule, (navigate_ok_iff rule.pathParts_ne).2 ⟨rfl, hx⟩, ruleWrite_ok rt hdrop, hw]
    rfl
  · rw [applyRule, (navigate_ok_iff rule.pathParts_ne).2 ⟨rfl, hx'⟩, ruleWrite_ok rt hdrop, hw']
    dsimp only [Option.map_some]
    rw [writeAt_over o v' _ rule.pathParts_ne hpre]

theorem applyRule_stays (hdrop : rule.action ≠ .dropField) {x : Json}
    (hx : valueAt (.obj o) rule.pathParts = some x)
    (hnone : rule.action.transform rt x = none) : applyRule rt (o, marks) rule = (o, marks) := by
  rw [applyRule, (navigate_ok_iff rule.pathParts_ne).2 ⟨rfl, hx⟩, ruleWrite_ok rt hdrop, hnone]
  rfl

theorem applyRule_blocks (hv : valueAt (.obj o) loc = some v) (hloc : loc ≠ [])
    (hpre : loc <+: rule.pathParts) (hne : loc ≠ rule.pathParts) (hleaf : Leaf v)
    (hleaf' : Leaf v') :
    applyRule rt (o, marks) rule = applyRule rt (writeAt o loc (some v'), marks) rule := by
  have hv' : valueAt (.obj (writeAt o loc (some v'))) loc = some v' := valueAt_writeAt_self hloc hv
  rw [applyRule, applyRule, navigate_blocked_iff.2 ⟨hpre, hne, v, hleaf, hv⟩,
    navigate_blocked_iff.2 ⟨hpre, hne, v', hleaf', hv'⟩]
  obtain ⟨w, mark, hwrite⟩ := ruleWrite_blocked rt rule loc
  rw [hwrite]
  dsimp only
  rw [writeAt_over o v' w hloc List.prefix_rfl]

variable {target : List String}

theorem Alike.of_eq {st st' : Obj × List String} (h : st = st') : Alike target st st' := by
  subst h
  exact ⟨rfl, .inl rfl⟩

/-- What a rule makes of two values it reaches: it leaves both, or it writes over both, and above
the target it writes texts that resemble each other. -/
def ReachesAlike (target : List String) (rule : CompiledRedactionRule) (x x' : Json) : Prop :=
  (rule.action.transform rt x = none ∧ rule.action.transform rt x' = none) ∨
    ∃ w w', rule.action.transform rt x = some w ∧ rule.action.transform rt x' = some w' ∧
      (rule.pathParts = target ∨
        ∃ s s', w = .str s ∧ w' = .str s' ∧ Resembles s.toList s'.toList)

theorem TransformsAlike.reaches {x x' : Json} (h : TransformsAlike rt rule.action x x') :
    ReachesAlike rt target rule x x' := by
  obtain hnone | ⟨s, s', hs, hs', hsame⟩ := h
  · exact .inl hnone
  · exact .inr ⟨_, _, hs, hs', .inr ⟨s, s', rfl, rfl, hsame⟩⟩

theorem transform_isSome {action : RedactionAction} (hdrop : action ≠ .dropField)
    (hhash : ∀ salt, action ≠ .hash salt) (x : Json) : ∃ w, action.transform rt x = some w := by
  cases action with
  | mask fixedLen c => exact ⟨_, rfl⟩
  | hash salt => exact absurd rfl (hhash salt)
  | octets keep c => exact ⟨_, rfl⟩
  | affixes kp ks c => exact ⟨_, rfl⟩
  | dropField => exact absurd rfl hdrop

theorem applyRule_alike_over (hpre : rule.pathParts <+: loc) (htarget : rule.pathParts <+: target)
    (htwins : Twins target o (writeAt o loc (some v'))) {x x' : Json}
    (hx : valueAt (.obj o) rule.pathParts = some x)
    (hx' : valueAt (.obj (writeAt o loc (some v'))) rule.pathParts = some x')
    (hreaches : rule.action ≠ .dropField → ReachesAlike rt target rule x x') :
    Alike target (applyRule rt (o, marks) rule)
      (applyRule rt (writeAt o loc (some v'), marks) rule) := by
  by_cases hdrop : rule.action = .dropField
  · exact .of_eq (applyRule_drops rt marks hdrop hpre hx hx')
  · obtain ⟨hnone, hnone'⟩ | ⟨w, w', hw, hw', hsame⟩ := hreaches hdrop
    · rw [applyRule_stays rt marks hdrop hx hnone, applyRule_stays rt marks hdrop hx' hnone']
      exact ⟨rfl, .inr htwins⟩
    · obtain ⟨mark, hwrite, hwrite'⟩ := applyRule_writes rt marks hdrop hpre hx hx' hw hw'
      rw [hwrite, hwrite']
      refine ⟨rfl, .inr ⟨rule.pathParts, w, w', rule.pathParts_ne, htarget, ?_, ?_, hsame⟩⟩
      · exact valueAt_writeAt_self rule.pathParts_ne hx
      · exact (writeAt_over o w (some w') rule.pathParts_ne List.prefix_rfl).symm

/-- One rule keeps two states alike. -/
theorem applyRule_alike {st st' : Obj × List String} (h : Alike target st st')
    (hbelow : target <+: rule.pathParts → target = rule.pathParts)
    (hhash : rule.pathParts = target → ∀ salt, rule.action ≠ .hash salt) :
    Alike target (applyRule rt st rule) (applyRule rt st' rule) := by
  obtain ⟨o, marks⟩ := st
  obtain ⟨o', marks'⟩ := st'
  obtain ⟨hmarks, hsame⟩ := h
  dsimp only at hmarks hsame
  subst hmarks
  obtain rfl | htwins := hsame
  · exact .of_eq rfl
  · obtain ⟨loc, v, v', hloc, hpre, hv, rfl, hdiff⟩ := htwins
    have htwins : Twins target o (writeAt o loc (some v')) :=
      ⟨loc, v, v', hloc, hpre, hv, rfl, hdiff⟩
    have hv' : valueAt (.obj (writeAt o loc (some v'))) loc = some v' :=
      valueAt_writeAt_self hloc hv
    by_cases hup : rule.pathParts <+: loc
    · by_cases hat : rule.pathParts = loc
      · -- at the difference: two texts, or any two values under the target
        have hx : valueAt (.obj o) rule.pathParts = some v := by rw [hat, hv]
        have hx' : valueAt (.obj (writeAt o loc (some v'))) rule.pathParts = some v' := by
          rw [hat, hv']
        apply applyRule_alike_over rt marks hup (hup.trans hpre) htwins hx hx'
        intro hdrop
        obtain rfl | ⟨s, s', rfl, rfl, hres⟩ := hdiff
        · obtain ⟨w, hw⟩ := transform_isSome rt hdrop (hhash hat) v
          obtain ⟨w', hw'⟩ := transform_isSome rt hdrop (hhash hat) v'
          exact .inr ⟨w, w', hw, hw', .inl hat⟩
        · exact (texts_transform rt hdrop hres).reaches
      · -- above it: two objects
        obtain ⟨inner, hinner⟩ := valueAt_above hv hup hat
        obtain ⟨inner', hinner'⟩ := valueAt_above hv' hup hat
        apply applyRule_alike_over rt marks hup (hup.trans hpre) htwins hinner hinner'
        intro hdrop
        exact (objects_transform rt hdrop inner inner').reaches
    · by_cases hdown : loc <+: rule.pathParts
      · have hne : loc ≠ rule.pathParts := by
          rintro rfl
          exact hup List.prefix_rfl
        obtain rfl | ⟨s, s', rfl, rfl, -⟩ := hdiff
        · exact absurd (hbelow hdown) hne
        · exact .of_eq (applyRule_blocks rt marks hv hloc hdown hne (leaf_str s) (leaf_str s'))
      · obtain ⟨o₁, hrun, hv₁, hrun'⟩ :=
          applyRule_beside rt marks v' hv ⟨hup, hdown⟩
        rw [hrun', hrun]
        exact ⟨rfl, .inr ⟨loc, v, v', hloc, hpre, hv₁, rfl, hdiff⟩⟩

theorem foldl_applyRule_alike (rules : List CompiledRedactionRule)
    {st st' : Obj × List String} (h : Alike target st st')
    (hbelow : ∀ rule ∈ rules, target <+: rule.pathParts → target = rule.pathParts)
    (hhash : ∀ rule ∈ rules, rule.pathParts = target → ∀ salt, rule.action ≠ .hash salt) :
    Alike target (rules.foldl (applyRule rt) st) (rules.foldl (applyRule rt) st') := by
  induction rules generalizing st st' with
  | nil => exact h
  | cons rule rules ih =>
    apply ih
    · exact applyRule_alike rt h (hbelow rule List.mem_cons_self) (hhash rule List.mem_cons_self)
    · exact fun r hr => hbelow r (List.mem_cons_of_mem rule hr)
    · exact fun r hr => hhash r (List.mem_cons_of_mem rule hr)

/-- An action whose result says nothing about the value. -/
def RedactionAction.Erases : RedactionAction → Prop
  | .mask .. | .dropField => True
  | .hash .. | .octets .. | .affixes .. => False

/-- The rule at the target takes the difference away. -/
theorem applyRule_erases {st st' : Obj × List String} (herases : rule.action.Erases)
    (h : Alike rule.pathParts st st') : applyRule rt st rule = applyRule rt st' rule := by
  obtain ⟨o, marks⟩ := st
  obtain ⟨o', marks'⟩ := st'
  obtain ⟨hmarks, hsame⟩ := h
  dsimp only at hmarks hsame
  subst hmarks
  obtain rfl | ⟨loc, v, v', hloc, hpre, hv, rfl, hdiff⟩ := hsame
  · rfl
  · have hv' : valueAt (.obj (writeAt o loc (some v'))) loc = some v' :=
      valueAt_writeAt_self hloc hv
    by_cases hat : loc = rule.pathParts
    · subst hat
      by_cases hdrop : rule.action = .dropField
      · exact applyRule_drops rt marks hdrop hpre hv hv'
      · have hconst : rule.action.transform rt v = rule.action.transform rt v' := by
          generalize rule.action = action at herases hdrop
          cases action with
          | mask fixedLen c => rfl
          | dropField => exact absurd rfl hdrop
          | hash _ | octets _ _ | affixes _ _ _ => exact herases.elim
        have hhash : ∀ salt, rule.action ≠ .hash salt := by
          intro salt heq
          rw [heq] at herases
          exact herases
        obtain ⟨w, hw⟩ := transform_isSome rt hdrop hhash v
        obtain ⟨mark, hwrite, hwrite'⟩ :=
          applyRule_writes rt marks hdrop hpre hv hv' hw (hconst ▸ hw)
        rw [hwrite, hwrite']
    · obtain heq | ⟨s, s', rfl, rfl, -⟩ := hdiff
      · exact absurd heq hat
      · exact applyRule_blocks rt marks hv hloc hpre hat (leaf_str s) (leaf_str s')

end Steps

section Plans
variable (rt : Runtime) {o : Obj} {target : List String} {v v' : Json}

theorem isAbsent_of_value {rule : CompiledRedactionRule} {x : Json}
    (h : valueAt (.obj o) rule.pathParts = some x) :
    (navigate o rule.pathParts).isAbsent = false := by
  rw [(navigate_ok_iff rule.pathParts_ne).2 ⟨rfl, h⟩]
  rfl

/-- Rules that do not go below the target are planned alike. -/
theorem redactionPlan_twins (v' : Json) (htarget : target ≠ []) (hv : valueAt (.obj o) target = some v)
    (rules : List CompiledRedactionRule)
    (hbelow : ∀ rule ∈ rules, target <+: rule.pathParts → target = rule.pathParts) :
    redactionPlan o rules = redactionPlan (writeAt o target (some v')) rules := by
  apply List.filter_congr
  intro rule hrule
  have hv' : valueAt (.obj (writeAt o target (some v'))) target = some v' :=
    valueAt_writeAt_self htarget hv
  by_cases hup : rule.pathParts <+: target
  · have hthere : ∀ {o : Obj} {v : Json}, valueAt (.obj o) target = some v →
        (navigate o rule.pathParts).isAbsent = false := by
      intro o v hv
      by_cases hat : rule.pathParts = target
      · exact isAbsent_of_value (hat ▸ hv)
      · obtain ⟨inner, hinner⟩ := valueAt_above hv hup hat
        exact isAbsent_of_value hinner
    rw [hthere hv, hthere hv']
  · have hdown : ¬ target <+: rule.pathParts := by
      intro hdown
      exact hup (hbelow rule hrule hdown ▸ List.prefix_rfl)
    rw [navigate_writeAt_apart rule.pathParts_ne hv ⟨hup, hdown⟩]

/-- What a rule erases does not show in the result. -/
theorem applyPiiRedaction_twins (pre post : List CompiledRedactionRule)
    {rule : CompiledRedactionRule} (herases : rule.action.Erases)
    (hv : valueAt (.obj o) rule.pathParts = some v)
    (hbelow : ∀ other ∈ pre ++ post, rule.pathParts <+: other.pathParts →
      rule.pathParts = other.pathParts)
    (hhash : ∀ other ∈ pre, other.pathParts = rule.pathParts → ∀ salt, other.action ≠ .hash salt) :
    applyPiiRedaction rt o (pre ++ rule :: post) =
      applyPiiRedaction rt (writeAt o rule.pathParts (some v')) (pre ++ rule :: post) := by
  have hplan := redactionPlan_twins v' rule.pathParts_ne hv (pre ++ rule :: post) (by
    intro other hmem hpre
    obtain hmem | hmem := List.mem_append.1 hmem
    · exact hbelow other (List.mem_append_left post hmem) hpre
    · obtain rfl | hmem := List.mem_cons.1 hmem
      · rfl
      · exact hbelow other (List.mem_append_right pre hmem) hpre)
  have hsplit := redactionPlan_split rule pre post o (isAbsent_of_value hv)
  have hstart : Alike rule.pathParts (o, []) (writeAt o rule.pathParts (some v'), []) :=
    ⟨rfl, .inr ⟨_, v, v', rule.pathParts_ne, List.prefix_rfl, hv, rfl, .inl rfl⟩⟩
  have hturn := foldl_applyRule_alike rt (redactionPlan o pre) hstart
    (fun other hmem => hbelow other (List.mem_append_left post (List.mem_filter.1 hmem).1))
    (fun other hmem => hhash other (List.mem_filter.1 hmem).1)
  have hend := applyRule_erases rt herases hturn
  rw [applyPiiRedaction, applyPiiRedaction, ← hplan, hsplit, List.foldl_append, List.foldl_cons,
    hend, List.foldl_append, List.foldl_cons]

end Plans

section Frame
variable (rt : Runtime) {loc : List String}

theorem outline_leaf {x y : Json} (hx : Leaf x) (h : outline y = outline x) : y = x := by
  obtain hy | ⟨o, rfl⟩ := leaf_or_obj y
  · cases x with
    | obj o => exact absurd rfl (hx o)
    | null | bool _ | int _ | float _ | str _ | list _ =>
      cases y with
      | obj o => exact absurd rfl (hy o)
      | null | bool _ | int _ | float _ | str _ | list _ => exact h
  · cases x with
    | obj o => exact absurd rfl (hx o)
    | null | bool _ | int _ | float _ | str _ | list _ => cases h

theorem blocked_of_outline {envelope o : Obj} {parts : List String}
    (h : (valueAt (.obj o) loc).map outline = (valueAt (.obj envelope) loc).map outline)
    (hblocked : navigate o parts = .blocked loc) : navigate envelope parts = .blocked loc := by
  obtain ⟨hpre, hne, x, hx, hv⟩ := navigate_blocked_iff.1 hblocked
  rw [hv, Option.map_some] at h
  obtain ⟨y, hy, hyx⟩ := Option.map_eq_some_iff.1 h.symm
  exact navigate_blocked_iff.2 ⟨hpre, hne, x, hx, outline_leaf hx hyx ▸ hy⟩

theorem foldl_applyRule_outline (envelope : Obj) (rules : List CompiledRedactionRule)
    (hbelow : ∀ rule ∈ rules, ¬ rule.pathParts <+: loc)
    (hblocked : ∀ rule ∈ rules, navigate envelope rule.pathParts ≠ .blocked loc)
    (st : Obj × List String)
    (h : (valueAt (.obj st.1) loc).map outline = (valueAt (.obj envelope) loc).map outline) :
    (valueAt (.obj (rules.foldl (applyRule rt) st).1) loc).map outline =
      (valueAt (.obj envelope) loc).map outline := by
  induction rules generalizing st with
  | nil => exact h
  | cons rule rules ih =>
    apply ih (fun r hr => hbelow r (List.mem_cons_of_mem rule hr))
      (fun r hr => hblocked r (List.mem_cons_of_mem rule hr))
    obtain hstay | ⟨loc', w, mark, htouch, hwrite⟩ := applyRule_touches rt st rule
    · rw [hstay, h]
    · have hnot : navigate st.1 rule.pathParts ≠ .blocked loc := fun hnav =>
        hblocked rule List.mem_cons_self (blocked_of_outline h hnav)
      rw [hwrite, ← h]
      exact htouch.outline rule.pathParts_ne (hbelow rule List.mem_cons_self) hnot

/-- What a redacted copy has of the envelope. -/
structure Framed (envelope : Obj) (rules : List CompiledRedactionRule) (out : Obj) : Prop where
  /-- What is neither at nor below a rule's path and blocks no rule has the same outline: the same
  value, or keys again, or nothing again. -/
  outline : ∀ loc, loc.head? ≠ some "_centralops_redacted" →
    (∀ rule ∈ rules, ¬ rule.pathParts <+: loc) →
    (∀ rule ∈ rules, navigate envelope rule.pathParts ≠ .blocked loc) →
    (valueAt (.obj out) loc).map CentralOps.outline =
      (valueAt (.obj envelope) loc).map CentralOps.outline
  /-- What is not above a rule's path either is the same value. -/
  value : ∀ loc, loc.head? ≠ some "_centralops_redacted" →
    (∀ rule ∈ rules, Apart rule.pathParts loc) → loc ≠ [] →
    valueAt (.obj out) loc = valueAt (.obj envelope) loc
  labels : out.lookup "_centralops" = envelope.lookup "_centralops"
  marks : ∃ marks, marks ≠ [] ∧
    out.lookup "_centralops_redacted" = some (.list (marks.map .str))

theorem applyPiiRedaction_framed {envelope out : Obj} {rules : List CompiledRedactionRule}
    (h : applyPiiRedaction rt envelope rules = some out) : Framed envelope rules out := by
  have hplan : ∀ rule ∈ redactionPlan envelope rules, rule ∈ rules := fun rule hrule =>
    (List.mem_filter.1 hrule).1
  rw [applyPiiRedaction] at h
  split at h
  · cases h
  · next hmarks =>
    obtain rfl := Option.some.inj h
    have hout : ∀ key rest, key ≠ "_centralops_redacted" →
        valueAt (.obj (Assoc.set "_centralops_redacted" (.list
          (((redactionPlan envelope rules).foldl (applyRule rt) (envelope, [])).2.map .str))
          ((redactionPlan envelope rules).foldl (applyRule rt) (envelope, [])).1)) (key :: rest) =
        valueAt (.obj ((redactionPlan envelope rules).foldl (applyRule rt) (envelope, [])).1)
          (key :: rest) := by
      intro key rest hkey
      rw [valueAt_cons, valueAt_cons, Assoc.lookup_set_ne hkey]
    constructor
    · intro loc hhead hbelow hblocked
      cases loc with
      | nil => rfl
      | cons key rest =>
        rw [hout key rest fun heq => hhead (congrArg some heq)]
        exact foldl_applyRule_outline rt envelope _ (fun r hr => hbelow r (hplan r hr))
          (fun r hr => hblocked r (hplan r hr)) _ rfl
    · intro loc hhead hapart hloc
      cases loc with
      | nil => exact absurd rfl hloc
      | cons key rest =>
        rw [hout key rest fun heq => hhead (congrArg some heq)]
        exact foldl_applyRule_apart rt _ _ fun r hr => hapart r (hplan r hr)
    · rw [Assoc.lookup_set_ne (by decide), foldl_applyRule_lookup (by decide)]
    · exact ⟨_, fun hnil => hmarks (by rw [hnil]; rfl), Assoc.lookup_set_self _ _ _⟩

end Frame

/-- An envelope in Python's heap, no deeper than a reader can descend. -/
structure HeldEnvelope (envelope : Obj) where
  heap : Heap Scalar
  ref : Ref Scalar
  fuel : Nat
  stored : StoredAt heap (.obj envelope) ref
  fits : (Json.obj envelope).depth ≤ fuel

/-- What `apply_pii_redaction` leaves of the heap: the cells that were there, and in new ones the
result. -/
def LeavesEnvelope (rt : Runtime) (rules : List CompiledRedactionRule) (envelope : Obj)
    (held : HeldEnvelope envelope) : Prop :=
  ∃ out h', applyPiiRedactionAt rt held.fuel held.ref rules held.heap = (out, h') ∧
    held.heap <+: h' ∧ StoredAt h' (.obj envelope) held.ref ∧
    match applyPiiRedaction rt envelope rules with
    | none => out = none
    | some o => ∃ w, out = some w ∧ StoredAt h' (.obj o) w

section Example

/-- A rule that drops `raw.user.name`. -/
def userNameDrop : CompiledRedactionRule := { userNameRule with action := .dropField }

end Example

end CentralOps
