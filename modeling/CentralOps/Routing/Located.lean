import CentralOps.Lib.DictMerge
import CentralOps.Routing.Redaction

/-! Values by location, and what a redaction rule leaves of the others. -/

namespace CentralOps
set_option autoImplicit true

/-- The value at a location. -/
def valueAt : Json → List String → Option Json
  | x, [] => some x
  | .obj o, key :: rest => (o.lookup key).bind (valueAt · rest)
  | _, _ :: _ => none

/-- A value without keys. -/
def Leaf (x : Json) : Prop := ∀ o, x ≠ .obj o

/-- Neither location lies at or below the other. -/
def Apart (loc loc' : List String) : Prop := ¬ loc <+: loc' ∧ ¬ loc' <+: loc

section Values

theorem valueAt_cons (o : Obj) (key : String) (rest : List String) :
    valueAt (.obj o) (key :: rest) = (o.lookup key).bind (valueAt · rest) := rfl

theorem Leaf.valueAt_cons {x : Json} (hx : Leaf x) (key : String) (rest : List String) :
    valueAt x (key :: rest) = none := by
  cases x with
  | obj o => exact absurd rfl (hx o)
  | null | bool _ | int _ | float _ | str _ | list _ => rfl

theorem valueAt_append (x : Json) (loc loc' : List String) :
    valueAt x (loc ++ loc') = (valueAt x loc).bind (valueAt · loc') := by
  induction loc generalizing x with
  | nil => rfl
  | cons key rest ih =>
    cases x with
    | obj o =>
      rw [List.cons_append, valueAt_cons, valueAt_cons, Option.bind_assoc]
      apply Option.bind_congr
      intro y _
      exact ih y
    | null | bool _ | int _ | float _ | str _ | list _ => rfl

theorem valueAt_below {x y : Json} {loc loc' : List String} (h : valueAt x loc = some y)
    (hy : Leaf y) (hpre : loc <+: loc') (hne : loc ≠ loc') : valueAt x loc' = none := by
  obtain ⟨rest, rfl⟩ := hpre
  rw [valueAt_append, h, Option.bind_some]
  cases rest with
  | nil => exact absurd (List.append_nil loc).symm hne
  | cons key rest => exact hy.valueAt_cons key rest

theorem valueAt_above {x y : Json} {loc loc' : List String} (h : valueAt x loc' = some y)
    (hpre : loc <+: loc') (hne : loc ≠ loc') : ∃ o, valueAt x loc = some (.obj o) := by
  obtain ⟨rest, rfl⟩ := hpre
  rw [valueAt_append] at h
  obtain ⟨z, hz, hy⟩ := Option.bind_eq_some_iff.1 h
  cases rest with
  | nil => exact absurd (List.append_nil loc).symm hne
  | cons key rest =>
    cases z with
    | obj o => exact ⟨o, hz⟩
    | null | bool _ | int _ | float _ | str _ | list _ => cases hy

end Values

section Navigation

theorem Nav.under_ok_iff {nav : Nav} {key : String} {loc : List String} {value : Json} :
    nav.under key = .ok loc value ↔ ∃ l, loc = key :: l ∧ nav = .ok l value := by
  cases nav with
  | absent => simp [Nav.under]
  | blocked l => simp [Nav.under]
  | ok l v => simp [Nav.under, eq_comm]

theorem Nav.under_blocked_iff {nav : Nav} {key : String} {loc : List String} :
    nav.under key = .blocked loc ↔ ∃ l, loc = key :: l ∧ nav = .blocked l := by
  cases nav with
  | absent => simp [Nav.under]
  | blocked l => simp [Nav.under, eq_comm]
  | ok l v => simp [Nav.under]

theorem navigate_nil (o : Obj) : navigate o [] = .absent := rfl

theorem navigate_one (o : Obj) (key : String) :
    navigate o [key] = (o.lookup key).elim .absent (.ok [key]) := by
  rw [navigate]
  cases o.lookup key with
  | none => rfl
  | some v => rfl

theorem navigate_obj {o inner : Obj} {key : String} {rest : List String} (hrest : rest ≠ [])
    (h : o.lookup key = some (.obj inner)) :
    navigate o (key :: rest) = (navigate inner rest).under key := by
  rw [navigate, h]
  dsimp only
  rw [if_neg (by simpa using hrest)]

theorem navigate_leaf {o : Obj} {x : Json} {key : String} {rest : List String} (hrest : rest ≠ [])
    (h : o.lookup key = some x) (hx : Leaf x) : navigate o (key :: rest) = .blocked [key] := by
  rw [navigate, h]
  dsimp only
  rw [if_neg (by simpa using hrest)]
  cases x with
  | obj inner => exact absurd rfl (hx inner)
  | null | bool _ | int _ | float _ | str _ | list _ => rfl

theorem leaf_or_obj (x : Json) : Leaf x ∨ ∃ o, x = .obj o := by
  cases x with
  | obj o => exact .inr ⟨o, rfl⟩
  | null | bool _ | int _ | float _ | str _ | list _ => exact .inl fun _ => nofun

/-- A path leads to the value under it, if there is one. -/
theorem navigate_ok_iff {o : Obj} {parts loc : List String} {value : Json} (hparts : parts ≠ []) :
    navigate o parts = .ok loc value ↔ loc = parts ∧ valueAt (.obj o) parts = some value := by
  induction parts generalizing o loc with
  | nil => exact absurd rfl hparts
  | cons key rest ih =>
    rw [valueAt_cons]
    by_cases hrest : rest = []
    · subst hrest
      rw [navigate_one]
      cases o.lookup key with
      | none => simp
      | some v => simp [valueAt, eq_comm]
    · cases hlook : o.lookup key with
      | none => simp [navigate, hlook]
      | some x =>
        obtain hx | ⟨inner, rfl⟩ := leaf_or_obj x
        · obtain ⟨key', rest, rfl⟩ := List.exists_cons_of_ne_nil hrest
          simp [navigate_leaf hrest hlook hx, hx.valueAt_cons]
        · rw [navigate_obj hrest hlook, Nav.under_ok_iff, Option.bind_some]
          simp only [ih hrest]
          constructor
          · rintro ⟨l, rfl, rfl, hv⟩
            exact ⟨rfl, hv⟩
          · rintro ⟨rfl, hv⟩
            exact ⟨rest, rfl, rfl, hv⟩

/-- A path is blocked by the first value on its way that has no keys. -/
theorem navigate_blocked_iff {o : Obj} {parts loc : List String} :
    navigate o parts = .blocked loc ↔
      loc <+: parts ∧ loc ≠ parts ∧ ∃ x, Leaf x ∧ valueAt (.obj o) loc = some x := by
  induction parts generalizing o loc with
  | nil =>
    rw [navigate_nil]
    simp only [List.prefix_nil, reduceCtorEq, false_iff]
    rintro ⟨hnil, hne, -⟩
    exact hne hnil
  | cons key rest ih =>
    have hcons : (loc <+: key :: rest ∧ loc ≠ key :: rest ∧
          ∃ x, Leaf x ∧ valueAt (.obj o) loc = some x) ↔
        ∃ l, loc = key :: l ∧ l <+: rest ∧ l ≠ rest ∧
          ∃ x, Leaf x ∧ (o.lookup key).bind (valueAt · l) = some x := by
      constructor
      · rintro ⟨hpre, hne, x, hx, hv⟩
        cases loc with
        | nil => exact absurd (Option.some.inj hv).symm (hx o)
        | cons k l =>
          obtain ⟨rfl, -⟩ := List.cons_prefix_cons.1 hpre
          exact ⟨l, rfl, (List.cons_prefix_cons.1 hpre).2, fun he => hne (he ▸ rfl), x, hx, hv⟩
      · rintro ⟨l, rfl, hpre, hne, x, hx, hv⟩
        exact ⟨List.cons_prefix_cons.2 ⟨rfl, hpre⟩, fun he => hne (List.cons.inj he).2, x, hx, hv⟩
    rw [hcons]
    by_cases hrest : rest = []
    · subst hrest
      rw [navigate_one]
      constructor
      · intro h
        cases hlook : o.lookup key with
        | none => simp [hlook] at h
        | some v => simp [hlook] at h
      · rintro ⟨l, -, hpre, hne, -⟩
        exact absurd (List.prefix_nil.1 hpre) hne
    · cases hlook : o.lookup key with
      | none => simp [navigate, hlook]
      | some x =>
        simp only [Option.bind_some]
        obtain hx | ⟨inner, rfl⟩ := leaf_or_obj x
        · rw [navigate_leaf hrest hlook hx]
          constructor
          · rintro ⟨rfl⟩
            exact ⟨[], rfl, List.nil_prefix, fun he => hrest he.symm, x, hx, rfl⟩
          · rintro ⟨l, rfl, -, -, y, -, hy⟩
            cases l with
            | nil => rfl
            | cons k l =>
              rw [hx.valueAt_cons] at hy
              cases hy
        · rw [navigate_obj hrest hlook, Nav.under_blocked_iff]
          simp only [ih]

end Navigation

section Writing

/-- What is not at, above or below a location stays. -/
theorem valueAt_writeAt_apart {o : Obj} {loc loc' : List String} {w : Option Json}
    (h : Apart loc loc') : valueAt (.obj (writeAt o loc w)) loc' = valueAt (.obj o) loc' := by
  induction loc generalizing o loc' with
  | nil => exact absurd List.nil_prefix h.1
  | cons key rest ih =>
    cases loc' with
    | nil => exact absurd List.nil_prefix h.2
    | cons key' rest' =>
      rw [valueAt_cons, valueAt_cons]
      by_cases hkey : key' = key
      · subst hkey
        have hrest : Apart rest rest' := by
          constructor
          · intro hpre
            exact h.1 (List.cons_prefix_cons.2 ⟨rfl, hpre⟩)
          · intro hpre
            exact h.2 (List.cons_prefix_cons.2 ⟨rfl, hpre⟩)
        have hne : rest ≠ [] := by
          rintro rfl
          exact hrest.1 List.nil_prefix
        by_cases hlook : ∃ inner, o.lookup key' = some (.obj inner)
        · obtain ⟨inner, hlook⟩ := hlook
          rw [writeAt_cons hne hlook, Assoc.lookup_set_self, hlook, Option.bind_some,
            Option.bind_some]
          exact ih hrest
        · rw [writeAt_stuck hne (not_exists.1 hlook)]
      · rw [lookup_writeAt_ne hkey]

theorem valueAt_writeAt_self {o : Obj} {loc : List String} {x : Json} {w : Option Json}
    (hloc : loc ≠ []) (h : valueAt (.obj o) loc = some x) :
    valueAt (.obj (writeAt o loc w)) loc = w := by
  induction loc generalizing o with
  | nil => exact absurd rfl hloc
  | cons key rest ih =>
    rw [valueAt_cons] at h ⊢
    obtain ⟨y, hlook, hy⟩ := Option.bind_eq_some_iff.1 h
    cases rest with
    | nil =>
      cases w with
      | none => rw [writeAt, Assoc.lookup_erase_self]; rfl
      | some w => rw [writeAt, Assoc.lookup_set_self]; rfl
    | cons key' rest =>
      obtain hleaf | ⟨inner, rfl⟩ := leaf_or_obj y
      · rw [hleaf.valueAt_cons] at hy
        cases hy
      · rw [writeAt_cons (List.cons_ne_nil _ _) hlook, Assoc.lookup_set_self, Option.bind_some]
        exact ih (List.cons_ne_nil _ _) hy

theorem valueAt_writeAt_above {o inner : Obj} {loc rest : List String} {w : Option Json}
    (hrest : rest ≠ []) (h : valueAt (.obj o) loc = some (.obj inner)) :
    valueAt (.obj (writeAt o (loc ++ rest) w)) loc = some (.obj (writeAt inner rest w)) := by
  induction loc generalizing o with
  | nil =>
    obtain rfl := Json.obj.inj (Option.some.inj h)
    rfl
  | cons key loc ih =>
    rw [valueAt_cons] at h ⊢
    obtain ⟨y, hlook, hy⟩ := Option.bind_eq_some_iff.1 h
    have hne : loc ++ rest ≠ [] := fun hnil => hrest (List.append_eq_nil_iff.1 hnil).2
    obtain hleaf | ⟨o', rfl⟩ := leaf_or_obj y
    · cases loc with
      | nil => exact absurd (Option.some.inj hy) (hleaf inner)
      | cons k loc =>
        rw [hleaf.valueAt_cons] at hy
        cases hy
    · rw [List.cons_append, writeAt_cons hne hlook, Assoc.lookup_set_self, Option.bind_some]
      exact ih hy

theorem writeAt_head (o : Obj) (key : String) (rest : List String) (v : Json) :
    writeAt o (key :: rest) (some v) = o ∨ ∃ z, writeAt o (key :: rest) (some v) = Assoc.set key z o := by
  by_cases hrest : rest = []
  · subst hrest
    exact .inr ⟨v, rfl⟩
  · by_cases hlook : ∃ inner, o.lookup key = some (.obj inner)
    · obtain ⟨inner, hlook⟩ := hlook
      exact .inr ⟨_, writeAt_cons hrest hlook _⟩
    · exact .inl (writeAt_stuck hrest (not_exists.1 hlook) _)

/-- What is written over is as if it had not been written. -/
theorem writeAt_over (o : Obj) {loc loc' : List String} (v : Json) (w : Option Json)
    (hloc : loc ≠ []) (hpre : loc <+: loc') :
    writeAt (writeAt o loc' (some v)) loc w = writeAt o loc w := by
  induction loc generalizing o loc' with
  | nil => exact absurd rfl hloc
  | cons key rest ih =>
    obtain ⟨below, rfl⟩ := hpre
    by_cases hrest : rest = []
    · subst hrest
      obtain hsame | ⟨z, hset⟩ := writeAt_head o key ([] ++ below) v
      · rw [List.cons_append, hsame]
      · rw [List.cons_append, hset]
        cases w with
        | none => exact Assoc.erase_set_self key z o
        | some w => exact Assoc.set_set_self key z w o
    · have hne : rest ++ below ≠ [] := fun hnil => hrest (List.append_eq_nil_iff.1 hnil).1
      rw [List.cons_append]
      by_cases hlook : ∃ inner, o.lookup key = some (.obj inner)
      · obtain ⟨inner, hlook⟩ := hlook
        rw [writeAt_cons hne hlook, writeAt_cons hrest (Assoc.lookup_set_self _ _ _),
          writeAt_cons hrest hlook, Assoc.set_set_self, ih inner hrest (List.prefix_append _ _)]
      · rw [writeAt_stuck hne (not_exists.1 hlook)]

theorem writeAt_same {o : Obj} {loc : List String} {v : Json} (hloc : loc ≠ [])
    (h : valueAt (.obj o) loc = some v) : writeAt o loc (some v) = o := by
  induction loc generalizing o with
  | nil => exact absurd rfl hloc
  | cons key rest ih =>
    rw [valueAt_cons] at h
    obtain ⟨y, hlook, hy⟩ := Option.bind_eq_some_iff.1 h
    by_cases hrest : rest = []
    · subst hrest
      obtain rfl := Option.some.inj hy
      exact Assoc.set_eq_self hlook
    · obtain ⟨inner, hinner⟩ := valueAt_above hy List.nil_prefix (Ne.symm hrest)
      obtain rfl := Option.some.inj hinner
      rw [writeAt_cons hrest hlook, ih hrest hy]
      exact Assoc.set_eq_self hlook

theorem mem_keys_of_lookup {o : Obj} {key : String} {x : Json} (h : o.lookup key = some x) :
    key ∈ o.map Prod.fst :=
  List.mem_map_of_mem (f := Prod.fst) (Assoc.mem_of_lookup h)

theorem writeAt_set_comm {o : Obj} {key key' : String} (hkey : key ∈ o.map Prod.fst)
    (hne : key' ≠ key) (z : Json) (rest : List String) (w : Option Json) :
    writeAt (Assoc.set key z o) (key' :: rest) w = Assoc.set key z (writeAt o (key' :: rest) w) := by
  by_cases hrest : rest = []
  · subst hrest
    cases w with
    | none => exact Assoc.erase_set_comm hne z o
    | some w => exact Assoc.set_comm hkey hne z w
  · have hlook : (Assoc.set key z o).lookup key' = o.lookup key' := Assoc.lookup_set_ne hne z o
    by_cases hobj : ∃ inner, o.lookup key' = some (.obj inner)
    · obtain ⟨inner, hobj⟩ := hobj
      rw [writeAt_cons hrest (hlook.trans hobj), writeAt_cons hrest hobj]
      exact Assoc.set_comm hkey hne z _
    · rw [writeAt_stuck hrest (not_exists.1 hobj), writeAt_stuck hrest]
      rw [hlook]
      exact not_exists.1 hobj

theorem writeAt_comm {o : Obj} {loc loc' : List String} {x : Json} (v : Json) (w : Option Json)
    (hx : valueAt (.obj o) loc = some x) (h : Apart loc loc') :
    writeAt (writeAt o loc (some v)) loc' w = writeAt (writeAt o loc' w) loc (some v) := by
  induction loc generalizing o loc' with
  | nil => exact absurd List.nil_prefix h.1
  | cons key rest ih =>
    cases loc' with
    | nil => exact absurd List.nil_prefix h.2
    | cons key' rest' =>
      rw [valueAt_cons] at hx
      obtain ⟨y, hlook, hy⟩ := Option.bind_eq_some_iff.1 hx
      by_cases hkey : key' = key
      · subst hkey
        have hrest : Apart rest rest' := by
          constructor
          · intro hpre
            exact h.1 (List.cons_prefix_cons.2 ⟨rfl, hpre⟩)
          · intro hpre
            exact h.2 (List.cons_prefix_cons.2 ⟨rfl, hpre⟩)
        have hne : rest ≠ [] := by
          rintro rfl
          exact hrest.1 List.nil_prefix
        have hne' : rest' ≠ [] := by
          rintro rfl
          exact hrest.2 List.nil_prefix
        obtain ⟨inner, hinner⟩ := valueAt_above hy List.nil_prefix hne.symm
        obtain rfl := Option.some.inj hinner
        rw [writeAt_cons hne hlook, writeAt_cons hne' hlook,
          writeAt_cons hne' (Assoc.lookup_set_self _ _ _),
          writeAt_cons hne (Assoc.lookup_set_self _ _ _), Assoc.set_set_self, Assoc.set_set_self,
          ih hy hrest]
      · have hset : ∃ z, ∀ o' : Obj, o'.lookup key = o.lookup key →
            writeAt o' (key :: rest) (some v) = Assoc.set key z o' := by
          by_cases hne : rest = []
          · subst hne
            exact ⟨v, fun _ _ => rfl⟩
          · obtain ⟨inner, hinner⟩ := valueAt_above hy List.nil_prefix (Ne.symm hne)
            obtain rfl := Option.some.inj hinner
            exact ⟨_, fun o' ho' => writeAt_cons hne (ho'.trans hlook) _⟩
        obtain ⟨z, hz⟩ := hset
        rw [hz o rfl, hz _ (lookup_writeAt_ne (Ne.symm hkey) o rest' w),
          writeAt_set_comm (mem_keys_of_lookup hlook) hkey]

/-- Navigation does not see a value replaced apart from the path. -/
theorem navigate_writeAt_apart {o : Obj} {parts loc : List String} {v v' : Json}
    (hparts : parts ≠ []) (hv : valueAt (.obj o) loc = some v) (h : Apart parts loc) :
    navigate (writeAt o loc (some v')) parts = navigate o parts := by
  have hloc : loc ≠ [] := by
    rintro rfl
    exact h.2 List.nil_prefix
  have hok : ∀ {o : Obj} {v v' x : Json} {l : List String}, valueAt (.obj o) loc = some v →
      navigate o parts = .ok l x → navigate (writeAt o loc (some v')) parts = .ok l x := by
    intro o v v' x l hv hnav
    obtain ⟨rfl, hx⟩ := (navigate_ok_iff hparts).1 hnav
    exact (navigate_ok_iff hparts).2 ⟨rfl, by rw [valueAt_writeAt_apart ⟨h.2, h.1⟩, hx]⟩
  have hblocked : ∀ {o : Obj} {v v' : Json} {l : List String}, valueAt (.obj o) loc = some v →
      navigate o parts = .blocked l → navigate (writeAt o loc (some v')) parts = .blocked l := by
    intro o v v' l hv hnav
    obtain ⟨hpre, hne, x, hx, hl⟩ := navigate_blocked_iff.1 hnav
    have hapart : Apart loc l := by
      constructor
      · exact fun habove => h.2 (habove.trans hpre)
      · intro hbelow
        by_cases heq : l = loc
        · exact h.2 (heq ▸ hpre)
        · obtain ⟨inner, hinner⟩ := valueAt_above hv hbelow heq
          rw [hl] at hinner
          exact hx inner (Option.some.inj hinner)
    exact navigate_blocked_iff.2
      ⟨hpre, hne, x, hx, by rw [valueAt_writeAt_apart hapart, hl]⟩
  cases hnav : navigate o parts with
  | ok l x => exact hok hv hnav
  | blocked l => exact hblocked hv hnav
  | absent =>
    have hv' : valueAt (.obj (writeAt o loc (some v'))) loc = some v' := valueAt_writeAt_self hloc hv
    have hback : writeAt (writeAt o loc (some v')) loc (some v) = o := by
      rw [writeAt_over o v' (some v) hloc List.prefix_rfl, writeAt_same hloc hv]
    cases hnav' : navigate (writeAt o loc (some v')) parts with
    | absent => rfl
    | ok l x =>
      have hagain := @hok _ _ v _ _ hv' hnav'
      rw [hback, hnav] at hagain
      cases hagain
    | blocked l =>
      have hagain := @hblocked _ _ v _ hv' hnav'
      rw [hback, hnav] at hagain
      cases hagain

end Writing

section Touching

structure Touches (o : Obj) (parts loc : List String) (w : Option Json) : Prop where
  place : loc = parts ∨ loc <+: parts ∧ loc ≠ parts ∧
    (∃ x, Leaf x ∧ valueAt (.obj o) loc = some x) ∧ (w = none ∨ w = some (.str maskSentinel))
  there : ∃ x, valueAt (.obj o) loc = some x
  text : ∀ x, w = some x → ∃ s, x = .str s

theorem CompiledRedactionRule.pathParts_ne (rule : CompiledRedactionRule) :
    rule.pathParts ≠ [] :=
  List.cons_ne_nil _ _

/-- An action leaves a value, takes it out, or puts a text in its place. -/
theorem transform_text {rt : Runtime} {action : RedactionAction} {value w : Json}
    (hw : action.transform rt value = some w) : ∃ s, w = .str s := by
  have hoctets : ∀ keep c, ∃ s, octetsValue keep c value = .str s := by
    intro keep c
    unfold octetsValue
    split
    · split
      · exact ⟨_, rfl⟩
      · split
        · exact ⟨_, rfl⟩
        · exact ⟨_, rfl⟩
    · exact ⟨_, rfl⟩
  have haffixes : ∀ kp ks c, ∃ s, affixesValue kp ks c value = .str s := by
    intro kp ks c
    unfold affixesValue
    split
    · dsimp only
      split
      · exact ⟨_, rfl⟩
      · exact ⟨_, rfl⟩
    · exact ⟨_, rfl⟩
  cases action with
  | mask fixedLen c =>
    cases hw
    exact ⟨_, rfl⟩
  | hash salt =>
    simp only [RedactionAction.transform, hashValue] at hw
    split at hw
    · split at hw
      · cases hw
      · cases hw
        exact ⟨_, rfl⟩
    · cases hw
      exact ⟨_, rfl⟩
  | octets keep c =>
    cases hw
    exact hoctets keep c
  | affixes kp ks c =>
    cases hw
    exact haffixes kp ks c
  | dropField => cases hw

theorem ruleWrite_ok (rt : Runtime) {rule : CompiledRedactionRule} (h : rule.action ≠ .dropField)
    (loc : List String) (value : Json) :
    ruleWrite rt rule (.ok loc value) = (rule.action.transform rt value).map
      (fun w => (loc, some w, rule.pathStr ++ ":" ++ rule.action.name)) := by
  rw [ruleWrite]
  split
  · next heq => exact absurd heq h
  · rfl

theorem ruleWrite_drop (rt : Runtime) {rule : CompiledRedactionRule} (h : rule.action = .dropField)
    (loc : List String) (value : Json) :
    ruleWrite rt rule (.ok loc value) = some (loc, none, rule.pathStr ++ ":drop_field") := by
  rw [ruleWrite, h]

theorem ruleWrite_blocked (rt : Runtime) (rule : CompiledRedactionRule) (loc : List String) :
    ∃ w mark, ruleWrite rt rule (.blocked loc) = some (loc, w, mark) := by
  rw [ruleWrite]
  split
  · exact ⟨_, _, rfl⟩
  · exact ⟨_, _, rfl⟩

theorem ruleWrite_touches {rt : Runtime} {rule : CompiledRedactionRule} {o : Obj}
    {loc : List String} {w : Option Json} {mark : String}
    (h : ruleWrite rt rule (navigate o rule.pathParts) = some (loc, w, mark)) :
    Touches o rule.pathParts loc w := by
  cases hnav : navigate o rule.pathParts with
  | absent =>
    rw [hnav] at h
    cases h
  | blocked loc' =>
    obtain ⟨hpre, hne, x, hx, hv⟩ := navigate_blocked_iff.1 hnav
    have htouch : ∀ w, w = none ∨ w = some (.str maskSentinel) →
        Touches o rule.pathParts loc' w := by
      intro w hw
      refine ⟨.inr ⟨hpre, hne, ⟨x, hx, hv⟩, hw⟩, ⟨x, hv⟩, ?_⟩
      rintro y rfl
      obtain hw | hw := hw
      · cases hw
      · exact ⟨_, Option.some.inj hw⟩
    rw [hnav, ruleWrite] at h
    split at h
    · cases h
      exact htouch none (.inl rfl)
    · cases h
      exact htouch _ (.inr rfl)
  | ok loc' value =>
    obtain ⟨rfl, hv⟩ := (navigate_ok_iff rule.pathParts_ne).1 hnav
    rw [hnav] at h
    by_cases hdrop : rule.action = .dropField
    · rw [ruleWrite_drop rt hdrop] at h
      cases h
      refine ⟨.inl rfl, ⟨value, hv⟩, ?_⟩
      rintro y ⟨⟩
    · rw [ruleWrite_ok rt hdrop] at h
      obtain ⟨x, htransform, heq⟩ := Option.map_eq_some_iff.1 h
      cases heq
      refine ⟨.inl rfl, ⟨value, hv⟩, ?_⟩
      intro y hy
      obtain rfl := Option.some.inj hy
      exact transform_text htransform

theorem applyRule_touches (rt : Runtime) (st : Obj × List String) (rule : CompiledRedactionRule) :
    applyRule rt st rule = st ∨ ∃ loc w mark, Touches st.1 rule.pathParts loc w ∧
      applyRule rt st rule = (writeAt st.1 loc w, st.2 ++ [mark]) := by
  rw [applyRule]
  split
  · exact .inl rfl
  · next loc w mark hwrite => exact .inr ⟨loc, w, mark, ruleWrite_touches hwrite, rfl⟩

variable {o : Obj} {parts loc loc' : List String} {w : Option Json}

theorem Touches.below (h : Touches o parts loc w) (hloc : loc ≠ []) (hpre : loc <+: loc')
    (hne : loc ≠ loc') : valueAt (.obj (writeAt o loc w)) loc' = none := by
  obtain ⟨x, hx⟩ := h.there
  have hw : valueAt (.obj (writeAt o loc w)) loc = w := valueAt_writeAt_self hloc hx
  obtain ⟨rest, rfl⟩ := hpre
  rw [valueAt_append, hw]
  cases w with
  | none => rfl
  | some y =>
    obtain ⟨s, rfl⟩ := h.text y rfl
    cases rest with
    | nil => exact absurd (List.append_nil loc).symm hne
    | cons key rest => rfl

theorem Touches.ne_nil (h : Touches o parts loc w) (hparts : parts ≠ []) : loc ≠ [] := by
  obtain rfl | ⟨-, -, ⟨x, hx, hv⟩, -⟩ := h.place
  · exact hparts
  · rintro rfl
    exact hx o (Option.some.inj hv).symm

theorem Touches.place_apart (h : Touches o parts loc w) {v : Json}
    (hv : valueAt (.obj o) loc' = some v) (hapart : Apart parts loc') : Apart loc' loc := by
  obtain rfl | ⟨hpre, -, ⟨x, hx, hl⟩, -⟩ := h.place
  · exact ⟨hapart.2, hapart.1⟩
  · constructor
    · exact fun habove => hapart.2 (habove.trans hpre)
    · intro hbelow
      have hne : loc ≠ loc' := by
        rintro rfl
        exact hapart.2 hpre
      obtain ⟨inner, hinner⟩ := valueAt_above hv hbelow hne
      rw [hl] at hinner
      exact hx inner (Option.some.inj hinner)

theorem Touches.apart (h : Touches o parts loc w) (hparts : parts ≠ []) (hapart : Apart parts loc') :
    valueAt (.obj (writeAt o loc w)) loc' = valueAt (.obj o) loc' := by
  obtain rfl | ⟨hpre, -, ⟨x, hx, hv⟩, -⟩ := h.place
  · exact valueAt_writeAt_apart hapart
  · by_cases hbelow : loc <+: loc'
    · have hne : loc ≠ loc' := by
        rintro rfl
        exact hapart.2 hpre
      rw [h.below (h.ne_nil hparts) hbelow hne, valueAt_below hv hx hbelow hne]
    · exact valueAt_writeAt_apart ⟨hbelow, fun habove => hapart.2 (habove.trans hpre)⟩

theorem Touches.absent (h : Touches o parts loc w) (hparts : parts ≠ [])
    (hnone : valueAt (.obj o) loc' = none) : valueAt (.obj (writeAt o loc w)) loc' = none := by
  obtain ⟨x, hx⟩ := h.there
  have hne : loc ≠ loc' := by
    rintro rfl
    rw [hnone] at hx
    cases hx
  by_cases hbelow : loc <+: loc'
  · exact h.below (h.ne_nil hparts) hbelow hne
  · by_cases habove : loc' <+: loc
    · obtain ⟨inner, hinner⟩ := valueAt_above hx habove hne.symm
      rw [hnone] at hinner
      cases hinner
    · rw [valueAt_writeAt_apart ⟨hbelow, habove⟩, hnone]

/-- A value as far as it is read without its keys. -/
def outline : Json → Json
  | .obj _ => .obj []
  | x => x

/-- A rule leaves the outline of what is neither at nor below its path and does not block it. -/
theorem Touches.outline (h : Touches o parts loc w) (hparts : parts ≠ [])
    (hbelow : ¬ parts <+: loc') (hblocked : navigate o parts ≠ .blocked loc') :
    (valueAt (.obj (writeAt o loc w)) loc').map outline = (valueAt (.obj o) loc').map outline := by
  have habove : ∀ loc, (∃ x, valueAt (.obj o) loc = some x) → loc' <+: loc → loc' ≠ loc →
      (valueAt (.obj (writeAt o loc w)) loc').map CentralOps.outline =
        (valueAt (.obj o) loc').map CentralOps.outline := by
    rintro loc ⟨x, hx⟩ hpre hne
    obtain ⟨inner, hinner⟩ := valueAt_above hx hpre hne
    obtain ⟨rest, rfl⟩ := hpre
    have hrest : rest ≠ [] := by
      rintro rfl
      exact hne (List.append_nil loc').symm
    rw [valueAt_writeAt_above hrest hinner, hinner]
    rfl
  by_cases hpre : loc' <+: parts
  · have hne : loc' ≠ parts := by
      rintro rfl
      exact hbelow List.prefix_rfl
    obtain rfl | ⟨hloc, hloc', ⟨x, hx, hv⟩, -⟩ := h.place
    · exact habove _ h.there hpre hne
    · have hdiff : loc' ≠ loc := by
        rintro rfl
        exact hblocked (navigate_blocked_iff.2 ⟨hloc, hloc', x, hx, hv⟩)
      obtain hup | hdown := List.prefix_or_prefix_of_prefix hpre hloc
      · exact habove _ h.there hup hdiff
      · rw [h.below (h.ne_nil hparts) hdown hdiff.symm, valueAt_below hv hx hdown hdiff.symm]
  · rw [h.apart hparts ⟨hbelow, hpre⟩]

end Touching

section Runs
variable (rt : Runtime)

theorem foldl_applyRule_marks (rules : List CompiledRedactionRule) (st : Obj × List String) :
    ∃ marks, (rules.foldl (applyRule rt) st).2 = st.2 ++ marks ∧
      (marks = [] → (rules.foldl (applyRule rt) st).1 = st.1) := by
  induction rules generalizing st with
  | nil => exact ⟨[], (List.append_nil _).symm, fun _ => rfl⟩
  | cons rule rules ih =>
    obtain ⟨marks, hmarks, hsame⟩ := ih (applyRule rt st rule)
    obtain hstay | ⟨loc, w, mark, -, hwrite⟩ := applyRule_touches rt st rule
    · rw [hstay] at hmarks hsame
      rw [List.foldl_cons, hstay]
      exact ⟨marks, hmarks, hsame⟩
    · refine ⟨mark :: marks, ?_, nofun⟩
      rw [List.foldl_cons, hmarks, hwrite, List.append_assoc]
      rfl

/-- The envelope after the rules of the plan. -/
def redacted (rules : List CompiledRedactionRule) (o : Obj) : Obj :=
  ((redactionPlan o rules).foldl (applyRule rt) (o, [])).1

theorem valueAt_redact (rules : List CompiledRedactionRule) (o : Obj) {key : String}
    (hkey : key ≠ "_centralops_redacted") (rest : List String) :
    valueAt (.obj (redact rt rules o)) (key :: rest) =
      valueAt (.obj (redacted rt rules o)) (key :: rest) := by
  obtain ⟨marks, hmarks, hsame⟩ := foldl_applyRule_marks rt (redactionPlan o rules) (o, [])
  rw [redact, applyPiiRedaction, redacted]
  split
  · next hempty =>
    rw [hmarks, List.nil_append, List.isEmpty_iff] at hempty
    rw [hsame hempty]
    rfl
  · rw [Option.getD_some, valueAt_cons, valueAt_cons, Assoc.lookup_set_ne hkey]

end Runs

end CentralOps
