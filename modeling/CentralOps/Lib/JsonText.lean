import Mathlib.Data.List.Basic

namespace JsonText
set_option autoImplicit true

/-- The digits of a whole number: none before the first but a lone zero. -/
inductive IsWhole : List Char → Prop where
  | zero : IsWhole ['0']
  | digits : c.isDigit = true → c ≠ '0' → (∀ d ∈ cs, d.isDigit = true) → IsWhole (c :: cs)

inductive IsFraction : List Char → Prop where
  | none : IsFraction []
  | digits : cs ≠ [] → (∀ d ∈ cs, d.isDigit = true) → IsFraction ('.' :: cs)

inductive IsExponent : List Char → Prop where
  | none : IsExponent []
  | digits : e ∈ ['e', 'E'] → sign ∈ [[], ['+'], ['-']] → cs ≠ [] →
      (∀ d ∈ cs, d.isDigit = true) → IsExponent (e :: sign ++ cs)

inductive IsNumber : List Char → Prop where
  | intro : sign ∈ [[], ['-']] → IsWhole whole → IsFraction fraction → IsExponent exponent →
      IsNumber (sign ++ whole ++ fraction ++ exponent)

def isHex (c : Char) : Bool := c.isDigit || c ∈ "abcdefABCDEF".toList

/-- What stands for one character between quotes. -/
inductive IsSpelling : List Char → Prop where
  | plain : c ≠ '"' → c ≠ '\\' → 0x20 ≤ c.toNat → IsSpelling [c]
  | short : c ∈ "\"\\/bfnrt".toList → IsSpelling ['\\', c]
  | unicode : cs.length = 4 → (∀ c ∈ cs, isHex c = true) → IsSpelling ('\\' :: 'u' :: cs)

inductive IsString : List Char → Prop where
  | quoted {spellings : List (List Char)} :
      (∀ s ∈ spellings, IsSpelling s) → IsString ('"' :: spellings.flatten ++ ['"'])

/-- A JSON text without spaces. -/
inductive IsValue : List Char → Prop where
  | null : IsValue "null".toList
  | true : IsValue "true".toList
  | false : IsValue "false".toList
  | number : IsNumber cs → IsValue cs
  | string : IsString cs → IsValue cs
  | array {vs : List (List Char)} :
      (∀ v ∈ vs, IsValue v) → IsValue ('[' :: List.intercalate [','] vs ++ [']'])
  | object {ms : List (List Char × List Char)} :
      (∀ m ∈ ms, IsString m.1) → (∀ m ∈ ms, IsValue m.2) →
      IsValue ('\x7b' :: List.intercalate [','] (ms.map (fun m => m.1 ++ ':' :: m.2)) ++ ['\x7d'])

/-- The spelling of a character by a writer that leaves what it may as it is. -/
def spell (c : Char) : List Char :=
  if c = '"' then ['\\', '"']
  else if c = '\\' then ['\\', '\\']
  else if c = '\n' then ['\\', 'n']
  else if c = '\r' then ['\\', 'r']
  else if c = '\t' then ['\\', 't']
  else if c.toNat = 8 then ['\\', 'b']
  else if c.toNat = 12 then ['\\', 'f']
  else if c.toNat < 0x20 then
    ['\\', 'u', '0', '0', Nat.digitChar (c.toNat / 16), Nat.digitChar (c.toNat % 16)]
  else [c]

def quote (cs : List Char) : List Char := '"' :: cs.flatMap spell ++ ['"']

theorem isHex_digitChar (h : n < 16) : isHex (Nat.digitChar n) = true := by
  have hall : ∀ n < 16, isHex (Nat.digitChar n) = true := by decide
  exact hall n h

theorem isSpelling_spell (c : Char) : IsSpelling (spell c) := by
  have hshort : ∀ d ∈ "\"\\/bfnrt".toList, IsSpelling ['\\', d] := fun d hd => .short hd
  rw [spell]
  split_ifs with hquote hslash hn hr ht hb hf hcontrol
  · exact hshort _ (by decide)
  · exact hshort _ (by decide)
  · exact hshort _ (by decide)
  · exact hshort _ (by decide)
  · exact hshort _ (by decide)
  · exact hshort _ (by decide)
  · exact hshort _ (by decide)
  · apply IsSpelling.unicode rfl
    intro d hd
    simp only [List.mem_cons, List.not_mem_nil, or_false] at hd
    rcases hd with rfl | rfl | rfl | rfl
    · rfl
    · rfl
    · exact isHex_digitChar (by omega)
    · exact isHex_digitChar (by omega)
  · exact .plain hquote hslash (by omega)

theorem isString_quote (cs : List Char) : IsString (quote cs) := by
  have h : IsString ('"' :: (cs.map spell).flatten ++ ['"']) := by
    apply IsString.quoted
    intro s hs
    obtain ⟨c, -, rfl⟩ := List.mem_map.1 hs
    exact isSpelling_spell c
  rw [quote, List.flatMap_def]
  exact h

theorem isWhole_toDigits (n : Nat) : IsWhole (Nat.toDigits 10 n) := by
  have hdigits : ∀ n, ∀ d ∈ Nat.toDigits 10 n, d.isDigit = true := fun n d hd =>
    Nat.isDigit_of_mem_toDigits (by decide) (by decide) hd
  induction n using Nat.strongRecOn with
  | ind n ih =>
    by_cases hn : n < 10
    · rw [Nat.toDigits_of_lt_base hn]
      by_cases hzero : n = 0
      · rw [hzero]
        exact .zero
      · have hall : ∀ n < 10, n ≠ 0 →
            (Nat.digitChar n).isDigit = true ∧ Nat.digitChar n ≠ '0' := by decide
        exact .digits (hall n hn hzero).1 (hall n hn hzero).2 (by simp)
    · have hpos : 0 < n / 10 := Nat.div_pos (Nat.not_lt.1 hn) (by decide)
      have hsplit := Nat.toDigits_of_base_le (b := 10) (by decide) (Nat.not_lt.1 hn)
      have hwhole := ih (n / 10) (by omega)
      have hlast : (Nat.digitChar (n % 10)).isDigit = true := by
        apply hdigits n
        rw [hsplit]
        exact List.mem_append_right _ (List.mem_singleton_self _)
      rw [hsplit]
      cases h : Nat.toDigits 10 (n / 10) with
      | nil => exact absurd h Nat.toDigits_ne_nil
      | cons c cs =>
        rw [h] at hwhole
        cases hwhole with
        | zero =>
          have hval := Nat.ofDigitChars_ten_toDigits (n := n / 10)
          rw [h] at hval
          exact absurd hval (by simp [Nat.ofDigitChars]; omega)
        | digits hc hne hcs =>
          apply IsWhole.digits hc hne
          intro d hd
          rcases List.mem_append.1 hd with hd | hd
          · exact hcs d hd
          · rw [List.mem_singleton.1 hd]
            exact hlast

theorem isNumber_whole (hsign : sign ∈ [[], ['-']]) (h : IsWhole cs) (hf : IsFraction fraction) :
    IsNumber (sign ++ cs ++ fraction) := by
  have hn := IsNumber.intro hsign h hf .none
  rw [List.append_nil] at hn
  exact hn

theorem isNumber_fraction (n : Int) (hf : IsFraction fraction) :
    IsNumber ((toString n).toList ++ fraction) := by
  cases n with
  | ofNat n =>
    have h : IsNumber ([] ++ Nat.toDigits 10 n ++ fraction) :=
      isNumber_whole (by decide) (isWhole_toDigits n) hf
    change IsNumber (n.repr.toList ++ fraction)
    rw [Nat.toList_repr]
    exact h
  | negSucc n =>
    have h : IsNumber (['-'] ++ Nat.toDigits 10 (n + 1) ++ fraction) :=
      isNumber_whole (by decide) (isWhole_toDigits (n + 1)) hf
    change IsNumber (("-" ++ (n + 1).repr).toList ++ fraction)
    rw [String.toList_append, Nat.toList_repr]
    exact h

theorem isNumber_int (n : Int) : IsNumber (toString n).toList := by
  have h := isNumber_fraction n .none
  rw [List.append_nil] at h
  exact h

theorem intercalate_prefix (sep : List Char) (xs : List (List Char)) (x : List Char) :
    List.intercalate sep xs <+: List.intercalate sep (xs ++ [x]) := by
  induction xs with
  | nil => exact List.nil_prefix
  | cons y ys ih =>
    cases ys with
    | nil =>
      rw [List.singleton_append, List.intercalate_cons_cons, List.intercalate_singleton,
        List.append_assoc]
      exact List.prefix_append _ _
    | cons z zs =>
      rw [List.cons_append, List.cons_append, List.intercalate_cons_cons,
        List.intercalate_cons_cons]
      exact (List.prefix_append_right_inj _).2 ih

theorem infix_intercalate (sep : List Char) {xs : List (List Char)} (h : x ∈ xs) :
    x <:+: List.intercalate sep xs := by
  induction xs with
  | nil => cases h
  | cons y ys ih =>
    cases ys with
    | nil =>
      obtain rfl := List.mem_singleton.1 h
      simp
    | cons z zs =>
      rw [List.intercalate_cons_cons]
      rcases List.mem_cons.1 h with rfl | h
      · rw [List.append_assoc]
        exact (List.prefix_append _ _).isInfix
      · exact (ih h).trans (List.suffix_append _ _).isInfix

end JsonText
