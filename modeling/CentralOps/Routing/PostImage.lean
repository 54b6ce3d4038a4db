import CentralOps.Lib.Words
import CentralOps.Routing.Located

namespace CentralOps
set_option autoImplicit true

/-- One of the digits `0` to `9` and `a` to `f`. -/
def HexDigit (c : Char) : Prop := ∃ d < 16, c = Nat.digitChar d

def pseudonymMark : List Char := "sha256:".toList

/-- What a rule leaves in the place of a value. -/
inductive PostImage (rt : Runtime) : RedactionAction → Json → Option Json → Prop where
  | sentinel (c : Char) (value : Json) :
      PostImage rt (.mask none c) value (some (.str maskSentinel))
  | fixed (n : Nat) (c : Char) (value : Json) :
      PostImage rt (.mask (some n) c) value (some (.str (String.ofList (List.replicate n c))))
  /-- A text that looks like a pseudonym stays. -/
  | pseudonym (salt : Option String) (s : String) (hmark : pseudonymMark <+: s.toList) :
      PostImage rt (.hash salt) (.str s) (some (.str s))
  | digest (salt : Option String) (value : Json)
      (hmark : ∀ s, value = .str s → ¬ pseudonymMark <+: s.toList)
      (hlen : (hexdigest (rt.sha256 (salt.getD "" ++ rt.str value))).length = 64)
      (hhex : ∀ c ∈ (hexdigest (rt.sha256 (salt.getD "" ++ rt.str value))).toList, HexDigit c) :
      PostImage rt (.hash salt) value
        (some (.str ("sha256:" ++ hexdigest (rt.sha256 (salt.getD "" ++ rt.str value)))))
  | closed (keep : Nat) (c : Char) (value : Json) :
      PostImage rt (.octets keep c) value (some (.str maskSentinel))
  /-- The first groups stay and the others, at least one, become the mask. -/
  | groups (keep : Nat) (c sep : Char) (s t : String) (hsep : sep = '.' ∨ sep = ':')
      (hkeep : keep < (s.toList.splitOn sep).length)
      (hjoin : t.toList = [sep].intercalate ((s.toList.splitOn sep).take keep ++
        List.replicate ((s.toList.splitOn sep).length - keep) [c]))
      (hgroups : c ≠ sep → t.toList.splitOn sep = (s.toList.splitOn sep).take keep ++
        List.replicate ((s.toList.splitOn sep).length - keep) [c]) :
      PostImage rt (.octets keep c) (.str s) (some (.str t))
  | shut (kp ks : Nat) (c : Char) (value : Json) :
      PostImage rt (.affixes kp ks c) value (some (.str maskSentinel))
  /-- Both ends stay, and every character between them, at least one, becomes the mask. -/
  | ends (kp ks : Nat) (c : Char) (s t : String) (hkeep : kp + ks < s.length)
      (hlen : t.length = s.length)
      (hends : ∀ i, i < kp ∨ s.length - ks ≤ i → t.toList[i]? = s.toList[i]?)
      (hmask : ∀ i, kp ≤ i → i < s.length - ks → t.toList[i]? = some c) :
      PostImage rt (.affixes kp ks c) (.str s) (some (.str t))
  | dropped (value : Json) : PostImage rt .dropField value none

section Digest

theorem mem_toDigits {n : Nat} : ∀ c ∈ Nat.toDigits 16 n, HexDigit c := by
  induction n using Nat.strong_induction_on with
  | _ n ih =>
    intro c hc
    rw [Nat.toDigits_eq_if (by decide)] at hc
    split at hc
    · next hn => exact ⟨n, hn, List.mem_singleton.1 hc⟩
    · next hn =>
      obtain hc | hc := List.mem_append.1 hc
      · exact ih (n / 16) (Nat.div_lt_self (by omega) (by decide)) c hc
      · exact ⟨n % 16, Nat.mod_lt n (by decide), List.mem_singleton.1 hc⟩

theorem hexdigest_toList (d : BitVec 256) :
    (hexdigest d).toList = (Nat.toDigits 16 d.toNat).leftpad 64 '0' :=
  String.toList_ofList

theorem hexdigest_length (d : BitVec 256) : (hexdigest d).length = 64 := by
  have hlen : (Nat.toDigits 16 d.toNat).length ≤ 64 := by
    rw [Nat.length_toDigits_le_iff (by decide) (by decide)]
    have hpow : (16 : Nat) ^ 64 = 2 ^ 256 := by decide
    rw [hpow]
    exact d.isLt
  rw [← String.length_toList, hexdigest_toList, List.leftpad, List.length_append,
    List.length_replicate]
  omega

theorem hexdigest_hex (d : BitVec 256) : ∀ c ∈ (hexdigest d).toList, HexDigit c := by
  intro c hc
  rw [hexdigest_toList, List.leftpad] at hc
  obtain hc | hc := List.mem_append.1 hc
  · exact ⟨0, by decide, (List.mem_replicate.1 hc).2⟩
  · exact mem_toDigits c hc

theorem hashValue_marked (rt : Runtime) (salt : Option String) {s : String}
    (h : pseudonymMark <+: s.toList) : hashValue rt salt (.str s) = none :=
  if_pos (List.isPrefixOf_iff_prefix.2 h)

theorem hashValue_unmarked (rt : Runtime) (salt : Option String) {s : String}
    (h : ¬ pseudonymMark <+: s.toList) : hashValue rt salt (.str s) =
      some (.str ("sha256:" ++ hexdigest (rt.sha256 (salt.getD "" ++ s)))) :=
  if_neg fun hp => h (List.isPrefixOf_iff_prefix.1 hp)

theorem hash_postImage (rt : Runtime) (salt : Option String) (value : Json) :
    PostImage rt (.hash salt) value (some ((hashValue rt salt value).getD value)) := by
  cases value with
  | str s =>
    by_cases hmark : pseudonymMark <+: s.toList
    · rw [hashValue_marked rt salt hmark]
      exact .pseudonym salt s hmark
    · rw [hashValue_unmarked rt salt hmark]
      apply PostImage.digest salt (.str s)
      · rintro s' hs
        obtain rfl := Json.str.inj hs
        exact hmark
      · exact hexdigest_length _
      · exact hexdigest_hex _
  | null | bool _ | int _ | float _ | list _ | obj _ =>
    exact .digest salt _ (fun _ => nofun) (hexdigest_length _) (hexdigest_hex _)

end Digest

section Partial

theorem affixes_getElem? {kp ks : Nat} {cs : List Char} (hkeep : kp + ks < cs.length) (c : Char)
    (i : Nat) :
    (cs.take kp ++ List.replicate (cs.length - kp - ks) c ++ cs.drop (cs.length - ks))[i]? =
      if kp ≤ i ∧ i < cs.length - ks then some c else cs[i]? := by
  have hkp : (cs.take kp).length = kp := by
    rw [List.length_take]
    omega
  rw [List.append_assoc]
  by_cases hprefix : i < kp
  · rw [List.getElem?_append_left (hkp.symm ▸ hprefix), List.getElem?_take_of_lt hprefix,
      if_neg (by omega)]
  · rw [List.getElem?_append_right (by omega), hkp]
    by_cases hmiddle : i < cs.length - ks
    · rw [List.getElem?_append_left (by rw [List.length_replicate]; omega),
        List.getElem?_replicate_of_lt (by omega), if_pos (by omega)]
    · rw [List.getElem?_append_right (by rw [List.length_replicate]; omega), List.length_replicate,
        List.getElem?_drop, if_neg (by omega)]
      congr 1
      omega

theorem affixes_postImage (rt : Runtime) (kp ks : Nat) (c : Char) (value : Json) :
    PostImage rt (.affixes kp ks c) value (some (affixesValue kp ks c value)) := by
  cases value with
  | str s =>
    rw [affixesValue]
    split
    · exact .shut kp ks c _
    · next hkeep =>
      rw [not_le] at hkeep
      have hget := affixes_getElem? hkeep c
      rw [String.length_toList] at hkeep hget
      apply PostImage.ends kp ks c s _ hkeep
      · rw [← String.length_toList, String.toList_ofList]
        simp only [List.length_append, List.length_take, List.length_replicate, List.length_drop,
          String.length_toList]
        omega
      · intro i hi
        rw [String.toList_ofList, String.length_toList, hget, if_neg (by omega)]
      · intro i hlow hhigh
        rw [String.toList_ofList, String.length_toList, hget, if_pos ⟨hlow, hhigh⟩]
  | null | bool _ | int _ | float _ | list _ | obj _ => exact .shut kp ks c _

theorem joinWith_toList (sep : Char) (groups : List (List Char)) :
    (joinWith sep groups).toList = [sep].intercalate groups :=
  String.toList_ofList

theorem maskGroups_postImage (rt : Runtime) (keep : Nat) (c : Char) {sep : Char}
    (hsep : sep = '.' ∨ sep = ':') (s : String) :
    PostImage rt (.octets keep c) (.str s) (some (.str (maskGroups keep c sep s.toList))) := by
  rw [maskGroups]
  split
  · exact .closed keep c _
  · next hkeep =>
    rw [not_le] at hkeep
    have hmasked : ((s.toList.splitOn sep).drop keep).map (fun _ => [c]) =
        List.replicate ((s.toList.splitOn sep).length - keep) [c] := by
      rw [List.map_const', List.length_drop]
    apply PostImage.groups keep c sep s _ hsep hkeep
    · rw [joinWith_toList, hmasked]
    · intro hne
      rw [joinWith_toList, hmasked]
      apply List.splitOn_intercalate
      · intro w hw
        obtain hw | hw := List.mem_append.1 hw
        · intro hin
          have hfalse := Words.splitOnP_forall (· == sep) s.toList w (List.mem_of_mem_take hw) sep hin
          simp at hfalse
        · rw [(List.mem_replicate.1 hw).2, List.mem_singleton]
          exact hne.symm
      · apply List.ne_nil_of_length_pos
        rw [List.length_append, List.length_replicate]
        omega

theorem octets_postImage (rt : Runtime) (keep : Nat) (c : Char) (value : Json) :
    PostImage rt (.octets keep c) value (some (octetsValue keep c value)) := by
  cases value with
  | str s =>
    rw [octetsValue]
    split
    · exact maskGroups_postImage rt keep c (.inl rfl) s
    · split
      · exact maskGroups_postImage rt keep c (.inr rfl) s
      · exact .closed keep c _
  | null | bool _ | int _ | float _ | list _ | obj _ => exact .closed keep c _

theorem transform_postImage (rt : Runtime) {action : RedactionAction} (h : action ≠ .dropField)
    (value : Json) :
    PostImage rt action value (some ((action.transform rt value).getD value)) := by
  cases action with
  | mask fixedLen c =>
    cases fixedLen with
    | none => exact .sentinel c value
    | some n => exact .fixed n c value
  | hash salt => exact hash_postImage rt salt value
  | octets keep c => exact octets_postImage rt keep c value
  | affixes kp ks c => exact affixes_postImage rt kp ks c value
  | dropField => exact absurd rfl h

end Partial

section Runs
variable (rt : Runtime) {loc : List String} {rule : CompiledRedactionRule}

theorem applyRule_apart (st : Obj × List String) (h : Apart rule.pathParts loc) :
    valueAt (.obj (applyRule rt st rule).1) loc = valueAt (.obj st.1) loc := by
  obtain hstay | ⟨loc', w, mark, htouch, hwrite⟩ := applyRule_touches rt st rule
  · rw [hstay]
  · rw [hwrite]
    exact htouch.apart rule.pathParts_ne h

theorem foldl_applyRule_apart (rules : List CompiledRedactionRule) (st : Obj × List String)
    (h : ∀ rule ∈ rules, Apart rule.pathParts loc) :
    valueAt (.obj (rules.foldl (applyRule rt) st).1) loc = valueAt (.obj st.1) loc := by
  induction rules generalizing st with
  | nil => rfl
  | cons rule rules ih =>
    rw [List.foldl_cons, ih _ fun r hr => h r (List.mem_cons_of_mem rule hr),
      applyRule_apart rt st (h rule List.mem_cons_self)]

theorem applyRule_postImage {st : Obj × List String} {value : Json}
    (h : valueAt (.obj st.1) rule.pathParts = some value) :
    PostImage rt rule.action value
      (valueAt (.obj (applyRule rt st rule).1) rule.pathParts) := by
  have hnav := (navigate_ok_iff rule.pathParts_ne).2 ⟨rfl, h⟩
  rw [applyRule, hnav]
  by_cases hdrop : rule.action = .dropField
  · rw [ruleWrite_drop rt hdrop]
    dsimp only
    rw [valueAt_writeAt_self rule.pathParts_ne h, hdrop]
    exact .dropped value
  · have hpost := transform_postImage rt hdrop value
    rw [ruleWrite_ok rt hdrop]
    cases htransform : rule.action.transform rt value with
    | none =>
      rw [htransform] at hpost
      dsimp only [Option.map_none]
      rw [h]
      exact hpost
    | some w =>
      rw [htransform] at hpost
      dsimp only [Option.map_some]
      rw [valueAt_writeAt_self rule.pathParts_ne h]
      exact hpost

theorem applyRule_blocked {st : Obj × List String}
    (h : navigate st.1 rule.pathParts = .blocked loc) :
    valueAt (.obj (applyRule rt st rule).1) loc = some (.str maskSentinel) ∨
      valueAt (.obj (applyRule rt st rule).1) loc = none := by
  obtain ⟨-, -, x, hx, hv⟩ := navigate_blocked_iff.1 h
  have hne : loc ≠ [] := by
    rintro rfl
    exact hx st.1 (Option.some.inj hv).symm
  rw [applyRule, h, ruleWrite]
  cases rule.action with
  | dropField => exact .inr (valueAt_writeAt_self hne hv)
  | mask _ _ | hash _ | octets _ _ | affixes _ _ _ => exact .inl (valueAt_writeAt_self hne hv)

def Shut (x : Json) (o : Obj) (loc : List String) : Prop :=
  (∃ y, valueAt (.obj o) loc = some y ∧ Leaf y ∧ (y = x ∨ y = .str maskSentinel)) ∨
    valueAt (.obj o) loc = none

theorem leaf_str (s : String) : Leaf (.str s) := fun _ => nofun

theorem shut_of_redacted {x : Json} {o : Obj}
    (h : valueAt (.obj o) loc = some (.str maskSentinel) ∨ valueAt (.obj o) loc = none) :
    Shut x o loc := by
  obtain h | h := h
  · exact .inl ⟨_, h, leaf_str _, .inr rfl⟩
  · exact .inr h

theorem applyRule_shut {x : Json} {st : Obj × List String} {parts : List String}
    (hpre : loc <+: parts) (hapart : Apart rule.pathParts parts) (h : Shut x st.1 loc) :
    Shut x (applyRule rt st rule).1 loc := by
  have hnotabove : ¬ rule.pathParts <+: loc := fun habove => hapart.1 (habove.trans hpre)
  obtain ⟨y, hy, hleaf, hxy⟩ | hnone := h
  · by_cases hbelow : loc <+: rule.pathParts
    · have hne : loc ≠ rule.pathParts := by
        rintro rfl
        exact hnotabove List.prefix_rfl
      exact shut_of_redacted
        (applyRule_blocked rt (navigate_blocked_iff.2 ⟨hbelow, hne, y, hleaf, hy⟩))
    · left
      refine ⟨y, ?_, hleaf, hxy⟩
      rw [applyRule_apart rt st ⟨hnotabove, hbelow⟩, hy]
  · obtain hstay | ⟨loc', w, mark, htouch, hwrite⟩ := applyRule_touches rt st rule
    · rw [hstay]
      exact .inr hnone
    · rw [hwrite]
      exact .inr (htouch.absent rule.pathParts_ne hnone)

theorem foldl_applyRule_shut {x : Json} {parts : List String} (hpre : loc <+: parts)
    (rules : List CompiledRedactionRule) (hapart : ∀ rule ∈ rules, Apart rule.pathParts parts)
    (st : Obj × List String) (h : Shut x st.1 loc) :
    Shut x (rules.foldl (applyRule rt) st).1 loc := by
  induction rules generalizing st with
  | nil => exact h
  | cons rule rules ih =>
    apply ih fun r hr => hapart r (List.mem_cons_of_mem rule hr)
    exact applyRule_shut rt hpre (hapart rule List.mem_cons_self) h

theorem applyRule_shuts {x : Json} {st : Obj × List String} (hpre : loc <+: rule.pathParts)
    (hne : loc ≠ rule.pathParts) (h : Shut x st.1 loc) :
    Shut (.str maskSentinel) (applyRule rt st rule).1 loc := by
  obtain ⟨y, hy, hleaf, -⟩ | hnone := h
  · exact shut_of_redacted
      (applyRule_blocked rt (navigate_blocked_iff.2 ⟨hpre, hne, y, hleaf, hy⟩))
  · obtain hstay | ⟨loc', w, mark, htouch, hwrite⟩ := applyRule_touches rt st rule
    · rw [hstay]
      exact .inr hnone
    · rw [hwrite]
      exact .inr (htouch.absent rule.pathParts_ne hnone)

variable (rule)

theorem redactionPlan_split (pre post : List CompiledRedactionRule) (o : Obj)
    (h : (navigate o rule.pathParts).isAbsent = false) :
    redactionPlan o (pre ++ rule :: post) =
      redactionPlan o pre ++ rule :: redactionPlan o post := by
  rw [redactionPlan, List.filter_append, List.filter_cons_of_pos (by rw [h]; rfl)]
  rfl

theorem redacted_split (pre post : List CompiledRedactionRule) (o : Obj)
    (h : (navigate o rule.pathParts).isAbsent = false) :
    redacted rt (pre ++ rule :: post) o = ((redactionPlan o post).foldl (applyRule rt)
      (applyRule rt ((redactionPlan o pre).foldl (applyRule rt) (o, [])) rule)).1 := by
  rw [redacted, redactionPlan_split rule pre post o h, List.foldl_append, List.foldl_cons]

end Runs

/-- After redaction a rule that resolves, and that no other rule's path overlaps, has left a
post-image of its value; what blocks it is the sentinel or gone. -/
theorem redaction_post_image (rt : Runtime) (envelope : Obj)
    (pre post : List CompiledRedactionRule) (rule : CompiledRedactionRule)
    (hapart : ∀ other ∈ pre ++ post, Apart other.pathParts rule.pathParts) :
    (∀ loc value, navigate envelope rule.pathParts = .ok loc value →
      PostImage rt rule.action value
        (valueAt (.obj (redact rt (pre ++ rule :: post) envelope)) rule.pathParts)) ∧
    ∀ loc, navigate envelope rule.pathParts = .blocked loc →
      valueAt (.obj (redact rt (pre ++ rule :: post) envelope)) loc =
          some (.str maskSentinel) ∨
        valueAt (.obj (redact rt (pre ++ rule :: post) envelope)) loc = none := by
  have hpre : ∀ other ∈ redactionPlan envelope pre, Apart other.pathParts rule.pathParts := by
    intro other hmem
    exact hapart other (List.mem_append_left post (List.mem_filter.1 hmem).1)
  have hpost : ∀ other ∈ redactionPlan envelope post, Apart other.pathParts rule.pathParts := by
    intro other hmem
    exact hapart other (List.mem_append_right pre (List.mem_filter.1 hmem).1)
  constructor
  · intro loc value hnav
    obtain ⟨-, hv⟩ := (navigate_ok_iff rule.pathParts_ne).1 hnav
    have hout := valueAt_redact rt (pre ++ rule :: post) envelope rule.root_ne.2
      (rule.field :: rule.below)
    rw [redacted_split rt rule pre post envelope (by rw [hnav]; rfl)] at hout
    rw [CompiledRedactionRule.pathParts, hout, ← CompiledRedactionRule.pathParts,
      foldl_applyRule_apart rt _ _ hpost]
    apply applyRule_postImage
    rw [foldl_applyRule_apart rt _ _ hpre, hv]
  · intro loc hnav
    obtain ⟨hloc, hne, x, hx, hv⟩ := navigate_blocked_iff.1 hnav
    have hturn := foldl_applyRule_shut rt hloc _ hpre (envelope, [])
      (.inl ⟨x, hv, hx, .inl rfl⟩)
    have hend := foldl_applyRule_shut rt hloc _ hpost _ (applyRule_shuts rt hloc hne hturn)
    rw [← redacted_split rt rule pre post envelope (by rw [hnav]; rfl)] at hend
    cases loc with
    | nil => exact absurd (Option.some.inj hv).symm (hx envelope)
    | cons key rest =>
      obtain ⟨hkey, -⟩ := List.cons_prefix_cons.1 hloc
      rw [valueAt_redact rt _ envelope (hkey ▸ rule.root_ne.2)]
      obtain ⟨y, hy, -, hyx⟩ | hnone := hend
      · left
        rw [hy, or_self_iff.1 hyx]
      · exact .inr hnone

section Example

/-- A rule for `raw.user`. -/
def userFieldRule (action : RedactionAction) : CompiledRedactionRule where
  pathStr := "raw.user"
  root := "raw"
  field := "user"
  below := []
  action := action
  root_allowed := raw_allowed

/-- A rule that masks `raw.user.name`. -/
def userNameRule : CompiledRedactionRule where
  pathStr := "raw.user.name"
  root := "raw"
  field := "user"
  below := ["name"]
  action := .mask none '*'
  root_allowed := raw_allowed

def userEvent (user : Json) : Obj := [("raw", .obj [("user", user), ("port", .int 22)])]

theorem userMask_postImage :
    PostImage .ascii (.mask none '*') (.int 7) (valueAt (.obj
      (redact .ascii [userFieldRule (.mask none '*')] (userEvent (.int 7)))) ["raw", "user"]) :=
  (redaction_post_image .ascii (userEvent (.int 7)) [] [] (userFieldRule (.mask none '*')) nofun).1
    ["raw", "user"] (.int 7) rfl

/-- A pseudonym is not hashed again, the sentinel masks itself, a mask that separates groups makes
more of them, and a later rule takes the sentinel of a blocked one for a value. -/
theorem redaction_leaves_values :
    valueAt (.obj (redact .ascii [userFieldRule (.hash none)] (userEvent (.str "sha256:ada"))))
        ["raw", "user"] = some (.str "sha256:ada") ∧
    "sha256:" ++ hexdigest (Runtime.ascii.sha256 "sha256:ada") ≠ "sha256:ada" ∧
    valueAt (.obj (redact .ascii [userFieldRule (.mask none '*')] (userEvent (.str "[REDACTED]"))))
        ["raw", "user"] = some (.str "[REDACTED]") ∧
    valueAt (.obj (redact .ascii [userFieldRule (.octets 2 '.')] (userEvent (.str "1.2.3.4"))))
        ["raw", "user"] = some (.str "1.2....") ∧
    ("1.2....".toList.splitOn '.').length ≠ ("1.2.3.4".toList.splitOn '.').length ∧
    navigate (userEvent (.str "ada")) userNameRule.pathParts = .blocked ["raw", "user"] ∧
    valueAt (.obj (redact .ascii [userNameRule, userFieldRule (.affixes 2 0 '*')]
        (userEvent (.str "ada")))) ["raw", "user"] = some (.str "[R********") := by
  refine ⟨by decide, by decide, by decide, by decide, by decide, by rfl, by decide⟩

end Example

end CentralOps
