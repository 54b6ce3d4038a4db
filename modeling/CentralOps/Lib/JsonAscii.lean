import CentralOps.Lib.JsonText
import Mathlib.Data.Char

namespace JsonText
set_option autoImplicit true

/-! Strings in plain ASCII, by the UTF-16 units of their characters. -/

def hexUnit (n : Nat) : List Char :=
  ['\\', 'u', Nat.digitChar (n / 4096), Nat.digitChar (n / 256 % 16),
    Nat.digitChar (n / 16 % 16), Nat.digitChar (n % 16)]

/-- The surrogate pair of a character beyond the basic plane. -/
def utf16 (c : Char) : List Nat :=
  if c.toNat < 0x10000 then [c.toNat]
  else [0xd800 + (c.toNat - 0x10000) / 0x400, 0xdc00 + (c.toNat - 0x10000) % 0x400]

def spellUnit (n : Nat) : List Char :=
  if n = 34 then ['\\', '"']
  else if n = 92 then ['\\', '\\']
  else if n = 10 then ['\\', 'n']
  else if n = 13 then ['\\', 'r']
  else if n = 9 then ['\\', 't']
  else if n = 8 then ['\\', 'b']
  else if n = 12 then ['\\', 'f']
  else if 0x20 ≤ n ∧ n < 0x7f then [Char.ofNat n]
  else hexUnit n

def quoteAscii (cs : List Char) : List Char :=
  '"' :: (cs.flatMap utf16).flatMap spellUnit ++ ['"']

theorem utf16_lt (c : Char) : ∀ n ∈ utf16 c, n < 0x10000 := by
  have hvalid : c.toNat < 0x110000 := by
    rcases c.valid with h | ⟨-, h⟩
    · exact lt_trans h (by decide)
    · exact h
  rw [utf16]
  split
  · simpa
  · simp
    omega

theorem toNat_ofNat (h : n < 0x7f) : (Char.ofNat n).toNat = n := by
  have hall : ∀ n < 0x7f, (Char.ofNat n).toNat = n := by decide
  exact hall n h

theorem isSpelling_spellUnit (h : n < 0x10000) : IsSpelling (spellUnit n) := by
  have hshort : ∀ d ∈ "\"\\/bfnrt".toList, IsSpelling ['\\', d] := fun d hd => .short hd
  rw [spellUnit]
  split_ifs with _ _ _ _ _ _ _ hplain
  · exact hshort _ (by decide)
  · exact hshort _ (by decide)
  · exact hshort _ (by decide)
  · exact hshort _ (by decide)
  · exact hshort _ (by decide)
  · exact hshort _ (by decide)
  · exact hshort _ (by decide)
  · have hchar := toNat_ofNat hplain.2
    apply IsSpelling.plain
    · intro heq
      rw [heq] at hchar
      exact absurd hchar.symm (by assumption)
    · intro heq
      rw [heq] at hchar
      exact absurd hchar.symm (by assumption)
    · rw [hchar]
      exact hplain.1
  · apply IsSpelling.unicode rfl
    intro d hd
    simp only [List.mem_cons, List.not_mem_nil, or_false] at hd
    rcases hd with rfl | rfl | rfl | rfl
    · exact isHex_digitChar (by omega)
    · exact isHex_digitChar (by omega)
    · exact isHex_digitChar (by omega)
    · exact isHex_digitChar (by omega)

theorem isString_quoteAscii (cs : List Char) : IsString (quoteAscii cs) := by
  rw [quoteAscii, List.flatMap_def]
  apply IsString.quoted
  intro s hs
  obtain ⟨n, hn, rfl⟩ := List.mem_map.1 hs
  obtain ⟨c, -, hc⟩ := List.mem_flatMap.1 hn
  exact isSpelling_spellUnit (utf16_lt c n hc)

def hexValue (c : Char) : Nat :=
  if c.isDigit then c.toNat - 48 else c.toNat - 87

theorem hexValue_digitChar (h : n < 16) : hexValue (Nat.digitChar n) = n := by
  have hall : ∀ n < 16, hexValue (Nat.digitChar n) = n := by decide
  exact hall n h

/-- What a backslash and the characters after it stand for. -/
def readEscape : List Char → Option (Nat × List Char)
  | 'u' :: a :: b :: c :: d :: rest =>
    some (hexValue a * 4096 + hexValue b * 256 + hexValue c * 16 + hexValue d, rest)
  | 'n' :: rest => some (10, rest)
  | 'r' :: rest => some (13, rest)
  | 't' :: rest => some (9, rest)
  | 'b' :: rest => some (8, rest)
  | 'f' :: rest => some (12, rest)
  | c :: rest => some (c.toNat, rest)
  | [] => none

/-- The first unit of a text, and what follows it. -/
def readUnit : List Char → Option (Nat × List Char)
  | c :: rest => if c = '\\' then readEscape rest else some (c.toNat, rest)
  | [] => none

theorem readUnit_spellUnit (h : n < 0x10000) (rest : List Char) :
    readUnit (spellUnit n ++ rest) = some (n, rest) := by
  rw [spellUnit]
  split_ifs with h1 h2 h3 h4 h5 h6 h7 hplain
  · rw [h1]; rfl
  · rw [h2]; rfl
  · rw [h3]; rfl
  · rw [h4]; rfl
  · rw [h5]; rfl
  · rw [h6]; rfl
  · rw [h7]; rfl
  · have hchar := toNat_ofNat hplain.2
    have hslash : Char.ofNat n ≠ '\\' := by
      intro heq
      rw [heq] at hchar
      exact h2 hchar.symm
    rw [List.singleton_append, readUnit, if_neg hslash, hchar]
  · rw [hexUnit]
    change some (_, rest) = _
    rw [hexValue_digitChar, hexValue_digitChar, hexValue_digitChar, hexValue_digitChar]
    · congr 2
      omega
    all_goals omega

theorem spellUnit_inj {m n : Nat} {xs ys : List Char} (hm : m < 0x10000) (hn : n < 0x10000)
    (h : spellUnit m ++ xs = spellUnit n ++ ys) : m = n ∧ xs = ys := by
  have hread := congrArg readUnit h
  rw [readUnit_spellUnit hm, readUnit_spellUnit hn, Option.some.injEq] at hread
  exact Prod.mk.inj hread

/-- No unit begins with the quote that ends a string. -/
theorem spellUnit_ne_quote (n : Nat) (rest : List Char) :
    ∃ c cs, spellUnit n ++ rest = c :: cs ∧ c ≠ '"' := by
  rw [spellUnit]
  split_ifs with h1 _ _ _ _ _ _ hplain
  · exact ⟨_, _, rfl, by decide⟩
  · exact ⟨_, _, rfl, by decide⟩
  · exact ⟨_, _, rfl, by decide⟩
  · exact ⟨_, _, rfl, by decide⟩
  · exact ⟨_, _, rfl, by decide⟩
  · exact ⟨_, _, rfl, by decide⟩
  · exact ⟨_, _, rfl, by decide⟩
  · refine ⟨_, _, rfl, fun heq => h1 ?_⟩
    have hchar := toNat_ofNat hplain.2
    rw [heq] at hchar
    exact hchar.symm
  · exact ⟨_, _, rfl, by decide⟩

theorem spellUnits_inj {ms ns : List Nat} {xs ys : List Char} (hm : ∀ m ∈ ms, m < 0x10000)
    (hn : ∀ n ∈ ns, n < 0x10000)
    (h : ms.flatMap spellUnit ++ '"' :: xs = ns.flatMap spellUnit ++ '"' :: ys) :
    ms = ns ∧ xs = ys := by
  induction ms generalizing ns with
  | nil =>
    cases ns with
    | nil => exact ⟨rfl, (List.cons.inj h).2⟩
    | cons n ns =>
      obtain ⟨c, cs, hc, hquote⟩ := spellUnit_ne_quote n (ns.flatMap spellUnit ++ '"' :: ys)
      rw [List.flatMap_cons, List.append_assoc, hc] at h
      exact absurd (List.cons.inj h).1.symm hquote
  | cons m ms ih =>
    cases ns with
    | nil =>
      obtain ⟨c, cs, hc, hquote⟩ := spellUnit_ne_quote m (ms.flatMap spellUnit ++ '"' :: xs)
      rw [List.flatMap_cons, List.append_assoc, hc] at h
      exact absurd (List.cons.inj h).1 hquote
    | cons n ns =>
      obtain ⟨hm', hms⟩ := List.forall_mem_cons.1 hm
      obtain ⟨hn', hns⟩ := List.forall_mem_cons.1 hn
      rw [List.flatMap_cons, List.flatMap_cons, List.append_assoc, List.append_assoc] at h
      obtain ⟨rfl, hrest⟩ := spellUnit_inj hm' hn' h
      obtain ⟨rfl, hends⟩ := ih hms hns hrest
      exact ⟨rfl, hends⟩

theorem utf16_inj {c d : Char} {ms ns : List Nat} (h : utf16 c ++ ms = utf16 d ++ ns) :
    c = d ∧ ms = ns := by
  have hof : ∀ {c d : Char}, c.toNat = d.toNat → c = d := fun {c d} heq => by
    rw [← Char.ofNat_toNat c, heq, Char.ofNat_toNat]
  have hscalar : ∀ c : Char, c.toNat < 0xd800 ∨ 0xdfff < c.toNat ∧ c.toNat < 0x110000 :=
    fun c => c.valid
  have hc := hscalar c
  have hd := hscalar d
  rw [utf16, utf16] at h
  split_ifs at h
  · obtain ⟨hhead, htail⟩ := List.cons.inj h
    exact ⟨hof hhead, htail⟩
  · have hhead := (List.cons.inj h).1
    omega
  · have hhead := (List.cons.inj h).1
    omega
  · obtain ⟨hhead, htail⟩ := List.cons.inj h
    obtain ⟨hsecond, hrest⟩ := List.cons.inj htail
    exact ⟨hof (by omega), hrest⟩

theorem flatMap_utf16_inj {cs ds : List Char} (h : cs.flatMap utf16 = ds.flatMap utf16) :
    cs = ds := by
  have hcons : ∀ c : Char, utf16 c ≠ [] := by
    intro c
    rw [utf16]
    split_ifs
    · exact List.cons_ne_nil _ _
    · exact List.cons_ne_nil _ _
  induction cs generalizing ds with
  | nil =>
    cases ds with
    | nil => rfl
    | cons d ds => exact absurd (List.append_eq_nil_iff.1 h.symm).1 (hcons d)
  | cons c cs ih =>
    cases ds with
    | nil => exact absurd (List.append_eq_nil_iff.1 h).1 (hcons c)
    | cons d ds =>
      obtain ⟨rfl, hrest⟩ := utf16_inj h
      rw [ih hrest]

/-- A string is read off a text that goes on after it. -/
theorem quoteAscii_inj {cs ds xs ys : List Char} (h : quoteAscii cs ++ xs = quoteAscii ds ++ ys) :
    cs = ds ∧ xs = ys := by
  have hunits : ∀ cs : List Char, ∀ n ∈ cs.flatMap utf16, n < 0x10000 := by
    intro cs n hn
    obtain ⟨c, -, hc⟩ := List.mem_flatMap.1 hn
    exact utf16_lt c n hc
  simp only [quoteAscii, List.cons_append, List.append_assoc, List.nil_append, List.cons.injEq,
    true_and] at h
  obtain ⟨hsame, hrest⟩ := spellUnits_inj (hunits cs) (hunits ds) h
  exact ⟨flatMap_utf16_inj hsame, hrest⟩

theorem number_chars {cs : List Char} (h : IsNumber cs) :
    ∀ c ∈ cs, c.isDigit = true ∨ c ∈ ['-', '+', '.', 'e', 'E'] := by
  have hwhole : ∀ {ds}, IsWhole ds → ∀ c ∈ ds, c.isDigit = true := by
    intro ds hds c hc
    cases hds with
    | zero =>
      rw [List.mem_singleton.1 hc]
      rfl
    | digits hd _ hall =>
      rcases List.mem_cons.1 hc with rfl | hc
      · exact hd
      · exact hall c hc
  cases h with
  | intro hsign hw hfraction hexponent =>
    intro c hc
    rcases List.mem_append.1 hc with hc | hc
    · rcases List.mem_append.1 hc with hc | hc
      · rcases List.mem_append.1 hc with hc | hc
        · right
          simp only [List.mem_cons, List.not_mem_nil, or_false] at hsign
          rcases hsign with rfl | rfl
          · cases hc
          · simp [List.mem_singleton.1 hc]
        · exact .inl (hwhole hw c hc)
      · cases hfraction with
        | none => cases hc
        | digits _ hall =>
          rcases List.mem_cons.1 hc with rfl | hc
          · simp
          · exact .inl (hall c hc)
    · cases hexponent with
      | none => cases hc
      | digits he hsign' _ hall =>
        rcases List.mem_append.1 hc with hc | hc
        · right
          simp only [List.mem_cons, List.not_mem_nil, or_false] at he hsign'
          rcases List.mem_cons.1 hc with rfl | hc
          · rcases he with rfl | rfl <;> simp
          · rcases hsign' with rfl | rfl | rfl
            · cases hc
            · simp [List.mem_singleton.1 hc]
            · simp [List.mem_singleton.1 hc]
        · exact .inl (hall c hc)

theorem number_ne_nil {cs : List Char} (h : IsNumber cs) : cs ≠ [] := by
  cases h with
  | intro _ hw _ _ => cases hw <;> simp

theorem int_inj {m n : Int} (h : (toString m).toList = (toString n).toList) : m = n := by
  have hdigits : ∀ n, ∀ d ∈ Nat.toDigits 10 n, d.isDigit = true := fun n d hd =>
    Nat.isDigit_of_mem_toDigits (by decide) (by decide) hd
  have hnat : ∀ {m n : Nat}, Nat.toDigits 10 m = Nat.toDigits 10 n → m = n := by
    intro m n heq
    rw [← Nat.ofDigitChars_ten_toDigits (n := m), heq, Nat.ofDigitChars_ten_toDigits]
  have hneg : ∀ m n : Nat, Nat.toDigits 10 m ≠ '-' :: Nat.toDigits 10 n := by
    intro m n heq
    have hdash := hdigits m '-' (by rw [heq]; exact List.mem_cons_self)
    cases hdash
  have htext : ∀ n : Nat, (toString (Int.negSucc n)).toList = '-' :: Nat.toDigits 10 (n + 1) := by
    intro n
    change ("-" ++ (n + 1).repr).toList = _
    rw [String.toList_append, Nat.toList_repr]
    rfl
  have htext' : ∀ n : Nat, (toString (Int.ofNat n)).toList = Nat.toDigits 10 n := by
    intro n
    change n.repr.toList = _
    exact Nat.toList_repr
  cases m with
  | ofNat m =>
    cases n with
    | ofNat n =>
      rw [htext', htext'] at h
      rw [hnat h]
    | negSucc n =>
      rw [htext', htext] at h
      exact absurd h (hneg m (n + 1))
  | negSucc m =>
    cases n with
    | ofNat n =>
      rw [htext', htext] at h
      exact absurd h.symm (hneg n (m + 1))
    | negSucc n =>
      rw [htext, htext] at h
      have hsame := hnat (List.cons.inj h).2
      rw [Nat.succ.inj hsame]

theorem int_chars (n : Int) : ∀ c ∈ (toString n).toList, c ≠ '.' := by
  have hdigits : ∀ n, ∀ c ∈ Nat.toDigits 10 n, c ≠ '.' := by
    rintro n c hc rfl
    have hdot := Nat.isDigit_of_mem_toDigits (by decide) (by decide) hc
    cases hdot
  cases n with
  | ofNat n =>
    change ∀ c ∈ n.repr.toList, c ≠ '.'
    rw [Nat.toList_repr]
    exact hdigits n
  | negSucc n =>
    change ∀ c ∈ ("-" ++ (n + 1).repr).toList, c ≠ '.'
    rw [String.toList_append, Nat.toList_repr]
    exact List.forall_mem_cons.2 ⟨by decide, hdigits (n + 1)⟩

/-! Texts that go on with a comma, or close what they stand in. -/

def isEnd (c : Char) : Bool := c ∈ [',', ']', '\x7d']

def Follows (rest : List Char) : Prop := ∀ c ∈ rest.head?, isEnd c = true

theorem follows_cons {c : Char} (h : isEnd c = true) (rest : List Char) : Follows (c :: rest) := by
  intro d hd
  rw [Option.mem_some_iff.1 hd] at h
  exact h

theorem atom_inj {xs ys r r' : List Char} (hx : ∀ c ∈ xs, isEnd c = false)
    (hy : ∀ c ∈ ys, isEnd c = false) (hr : Follows r) (hr' : Follows r')
    (h : xs ++ r = ys ++ r') : xs = ys ∧ r = r' := by
  induction xs generalizing ys with
  | nil =>
    cases ys with
    | nil => exact ⟨rfl, h⟩
    | cons y ys =>
      have hend := hr y (by rw [List.nil_append] at h; rw [h]; rfl)
      rw [hy y List.mem_cons_self] at hend
      cases hend
  | cons x xs ih =>
    cases ys with
    | nil =>
      have hend := hr' x (by rw [List.nil_append] at h; rw [← h]; rfl)
      rw [hx x List.mem_cons_self] at hend
      cases hend
    | cons y ys =>
      obtain ⟨rfl, hrest⟩ := List.cons.inj h
      obtain ⟨rfl, hends⟩ := ih (List.forall_mem_cons.1 hx).2 (List.forall_mem_cons.1 hy).2 hrest
      exact ⟨rfl, hends⟩

theorem intercalate_first (t : List Char) (ts : List (List Char)) (rest : List Char) :
    List.intercalate [','] (t :: ts) ++ rest =
      t ++ (if ts = [] then rest else ',' :: List.intercalate [','] ts ++ rest) := by
  cases ts with
  | nil => rw [List.intercalate_singleton, if_pos rfl]
  | cons u us =>
    rw [List.intercalate_cons_cons, if_neg (List.cons_ne_nil _ _), List.append_assoc,
      List.append_assoc]
    rfl

theorem intercalate_inj {α : Type} {text : α → List Char} {close : Char} {xs ys : List α}
    {r r' : List Char} (hclose : isEnd close = true) (hcomma : close ≠ ',')
    (hstart : ∀ y ∈ ys, ∃ c cs, text y = c :: cs ∧ isEnd c = false)
    (hstart' : ∀ x ∈ xs, ∃ c cs, text x = c :: cs ∧ isEnd c = false)
    (hinj : ∀ x ∈ xs, ∀ y ∈ ys, ∀ r r', Follows r → Follows r' → text x ++ r = text y ++ r' →
      x = y ∧ r = r')
    (h : List.intercalate [','] (xs.map text) ++ close :: r =
      List.intercalate [','] (ys.map text) ++ close :: r') : xs = ys ∧ r = r' := by
  have hfollows : ∀ (ts : List (List Char)) (r : List Char), Follows
      (if ts = [] then close :: r else ',' :: List.intercalate [','] ts ++ close :: r) := by
    intro ts r
    split
    · exact follows_cons hclose r
    · exact follows_cons rfl _
  induction xs generalizing ys with
  | nil =>
    cases ys with
    | nil => exact ⟨rfl, (List.cons.inj h).2⟩
    | cons y ys =>
      obtain ⟨c, cs, hc, hnot⟩ := hstart y List.mem_cons_self
      rw [List.map_cons, intercalate_first, hc] at h
      rw [(List.cons.inj h).1, hnot] at hclose
      cases hclose
  | cons x xs ih =>
    cases ys with
    | nil =>
      obtain ⟨c, cs, hc, hnot⟩ := hstart' x List.mem_cons_self
      rw [List.map_cons, intercalate_first, hc] at h
      rw [← (List.cons.inj h).1, hnot] at hclose
      cases hclose
    | cons y ys =>
      rw [List.map_cons, List.map_cons, intercalate_first, intercalate_first] at h
      obtain ⟨rfl, hrest⟩ := hinj x List.mem_cons_self y List.mem_cons_self _ _
        (hfollows _ r) (hfollows _ r') h
      cases xs with
      | nil =>
        cases ys with
        | nil => exact ⟨rfl, (List.cons.inj hrest).2⟩
        | cons y' ys => exact absurd (List.cons.inj hrest).1 hcomma
      | cons x' xs =>
        cases ys with
        | nil => exact absurd (List.cons.inj hrest).1.symm hcomma
        | cons y' ys =>
          obtain ⟨heq, hends⟩ := ih (fun y hy => hstart y (List.mem_cons_of_mem _ hy))
            (fun x hx => hstart' x (List.mem_cons_of_mem _ hx))
            (fun x hx y hy => hinj x (List.mem_cons_of_mem _ hx) y (List.mem_cons_of_mem _ hy))
            (List.cons.inj hrest).2
          rw [heq]
          exact ⟨rfl, hends⟩

end JsonText
