import Mathlib.Algebra.GroupWithZero.Nat
import Mathlib.Data.List.TakeWhile

namespace Py
set_option autoImplicit true

/-- A character of a Python `str`: any code point, a surrogate too. -/
abbrev CodePoint := Fin 1114112

abbrev Text := List CodePoint

instance neZero_codePoints : NeZero 1114112 := ⟨by decide⟩

instance lawfulBEq_text : LawfulBEq Text := inferInstance

def ch (c : Char) : CodePoint := Fin.ofNat 1114112 c.toNat

def text (s : String) : Text := s.toList.map ch

def decimalZeros : List Nat :=
  [0x30, 0x660, 0x6f0, 0x7c0, 0x966, 0x9e6, 0xa66, 0xae6, 0xb66, 0xbe6, 0xc66, 0xce6, 0xd66, 0xde6,
    0xe50, 0xed0, 0xf20, 0x1040, 0x1090, 0x17e0, 0x1810, 0x1946, 0x19d0, 0x1a80, 0x1a90, 0x1b50,
    0x1bb0, 0x1c40, 0x1c50, 0xa620, 0xa8d0, 0xa900, 0xa9d0, 0xa9f0, 0xaa50, 0xabf0, 0xff10, 0x104a0,
    0x10d30, 0x11066, 0x110f0, 0x11136, 0x111d0, 0x112f0, 0x11450, 0x114d0, 0x11650, 0x116c0,
    0x11730, 0x118e0, 0x11950, 0x11c50, 0x11d50, 0x11da0, 0x16a60, 0x16ac0, 0x16b50, 0x1d7ce,
    0x1d7d8, 0x1d7e2, 0x1d7ec, 0x1d7f6, 0x1e140, 0x1e2f0, 0x1e950, 0x1fbf0]

def decimal? (c : CodePoint) : Option Nat :=
  (decimalZeros.find? (fun z => z ≤ c.val && c.val < z + 10)).map (fun z => c.val - z)

def isDecimal (c : CodePoint) : Bool := (decimal? c).isSome

/-- `str.isspace` of a character. -/
def isSpace (c : CodePoint) : Bool :=
  9 ≤ c.val && c.val ≤ 13 || 28 ≤ c.val && c.val ≤ 32 || c.val == 0x85 || c.val == 0xa0 ||
    c.val == 0x1680 || 0x2000 ≤ c.val && c.val ≤ 0x200a || c.val == 0x2028 || c.val == 0x2029 ||
    c.val == 0x202f || c.val == 0x205f || c.val == 0x3000

/-- `int` of a text of decimal digits. -/
def decimalValue (s : Text) : Nat := s.foldl (fun n c => 10 * n + (decimal? c).getD 0) 0

def lstrip (p : CodePoint → Bool) (s : Text) : Text := s.dropWhile p

def rstrip (p : CodePoint → Bool) (s : Text) : Text := (s.reverse.dropWhile p).reverse

def strip (p : CodePoint → Bool) (s : Text) : Text := rstrip p (lstrip p s)

def afterFirst (pat : Text) : Text → Option Text
  | [] => pat.isPrefixOf? []
  | c :: s =>
    match pat.isPrefixOf? (c :: s) with
    | some rest => some rest
    | none => afterFirst pat s

/-- `s.split(c, n)`. -/
def splitMax (c : CodePoint) : Nat → Text → List Text
  | 0, s => [s]
  | n + 1, s =>
    match s.dropWhile (· ≠ c) with
    | [] => [s]
    | _ :: rest => s.takeWhile (· ≠ c) :: splitMax c n rest

/-- `s.split(delim)`, with the rest of a delimiter still to pass and the part read so far. -/
def splitGo (delim : Text) : Nat → Text → Text → List Text
  | _, part, [] => [part]
  | n + 1, part, _ :: s => splitGo delim n part s
  | 0, part, c :: s =>
    if delim.isPrefixOf (c :: s) then part :: splitGo delim (delim.length - 1) [] s
    else splitGo delim 0 (part ++ [c]) s

def split (delim s : Text) : List Text := splitGo delim 0 [] s

/-- `s.replace(old, new)`, with the rest of a replaced text still to pass. -/
def replaceGo (old new : Text) : Nat → Text → Text
  | _, [] => []
  | n + 1, _ :: s => replaceGo old new n s
  | 0, c :: s =>
    if old.isPrefixOf (c :: s) then new ++ replaceGo old new (old.length - 1) s
    else c :: replaceGo old new 0 s

def replace (old new s : Text) : Text := replaceGo old new 0 s

/-- `s.split()`. -/
def words (s : Text) : List Text := (s.splitOnP isSpace).filter (fun w => !w.isEmpty)

def cSpace (c : CodePoint) : Bool := 9 ≤ c.val && c.val ≤ 13 || c.val == 32

/-- Other digits and white space as their ASCII ones, and the rest of what is not ASCII as `?`. -/
def toAscii (c : CodePoint) : CodePoint :=
  if c.val < 127 then c
  else if isSpace c then ch ' '
  else
    match decimal? c with
    | some d => Fin.ofNat 1114112 (48 + d)
    | none => ch '?'

def hexDigit? (c : CodePoint) : Option Nat :=
  if 48 ≤ c.val ∧ c.val ≤ 57 then some (c.val - 48)
  else if 97 ≤ c.val ∧ c.val ≤ 102 then some (c.val - 87)
  else if 65 ≤ c.val ∧ c.val ≤ 70 then some (c.val - 55)
  else none

def sign (s : Text) : Int × Text :=
  match s with
  | c :: rest => if c = ch '+' then (1, rest) else if c = ch '-' then (-1, rest) else (1, s)
  | [] => (1, [])

/-- The text after `0x` and one underscore that may follow it. -/
def hexPrefix (s : Text) : Text :=
  match s with
  | z :: x :: rest =>
    if z = ch '0' ∧ (x = ch 'x' ∨ x = ch 'X') then
      match rest with
      | u :: rest' => if u = ch '_' then rest' else rest
      | [] => []
    else s
  | _ => s

/-- No underscore at the start, at the end or next to another. -/
def grouped (run : Text) : Bool :=
  run.head? != some (ch '_') && run.getLast? != some (ch '_') &&
    (run.zip run.tail).all (fun p => p.1 != ch '_' || p.2 != ch '_')

/-- `int(s, 16)`, or nothing where it raises `ValueError`. -/
def int16 (s : Text) : Option Int :=
  let (sg, body) := sign (lstrip cSpace (s.map toAscii))
  let body := hexPrefix body
  let isDigit := fun c => (hexDigit? c).isSome || c == ch '_'
  let run := body.takeWhile isDigit
  if run ≠ [] ∧ grouped run ∧ (body.dropWhile isDigit).all cSpace then
    some (sg * ((run.filterMap hexDigit?).foldl (fun n d => 16 * n + d) 0 : Nat))
  else none

/-- `chr(n)`, or nothing where it raises. -/
def chr (n : Int) : Option CodePoint :=
  if h : 0 ≤ n ∧ n < 1114112 then some ⟨n.toNat, by omega⟩ else none

/-- A sequence of UTF-8 that has begun: the bits so far, the bytes still to come and the bounds of
the next one. -/
structure Utf8 where
  bits : Nat
  left : Nat
  low : UInt8
  high : UInt8

def replacement : CodePoint := 0xfffd

/-- The first byte of a character: the character, or the sequence it begins. -/
def utf8Start (b : UInt8) : CodePoint ⊕ Utf8 :=
  if b < 0x80 then .inl (Fin.ofNat 1114112 b.toNat)
  else if b < 0xc2 then .inl replacement
  else if b < 0xe0 then .inr ⟨b.toNat - 0xc0, 1, 0x80, 0xbf⟩
  else if b < 0xf0 then
    .inr ⟨b.toNat - 0xe0, 2, if b = 0xe0 then 0xa0 else 0x80, if b = 0xed then 0x9f else 0xbf⟩
  else if b < 0xf5 then
    .inr ⟨b.toNat - 0xf0, 3, if b = 0xf0 then 0x90 else 0x80, if b = 0xf4 then 0x8f else 0xbf⟩
  else .inl replacement

/-- `decode("utf-8", "replace")`: the longest beginning of a character that does not go on is
replaced as one. -/
def decodeGo : Option Utf8 → List UInt8 → Text
  | none, [] => []
  | some _, [] => [replacement]
  | none, b :: bs =>
    match utf8Start b with
    | .inl c => c :: decodeGo none bs
    | .inr u => decodeGo (some u) bs
  | some u, b :: bs =>
    if u.low ≤ b ∧ b ≤ u.high then
      let bits := 64 * u.bits + (b.toNat - 0x80)
      if u.left = 1 then Fin.ofNat 1114112 bits :: decodeGo none bs
      else decodeGo (some ⟨bits, u.left - 1, 0x80, 0xbf⟩) bs
    else
      match utf8Start b with
      | .inl c => replacement :: c :: decodeGo none bs
      | .inr u => replacement :: decodeGo (some u) bs

def decode (bs : List UInt8) : Text := decodeGo none bs

def isSurrogate (c : CodePoint) : Bool := 0xd800 ≤ c.val && c.val ≤ 0xdfff

def encodeChar (c : CodePoint) : Option (List UInt8) :=
  let n := c.val
  if n < 0x80 then some [UInt8.ofNat n]
  else if n < 0x800 then some [UInt8.ofNat (0xc0 + n / 64), UInt8.ofNat (0x80 + n % 64)]
  else if isSurrogate c then none
  else if n < 0x10000 then
    some [UInt8.ofNat (0xe0 + n / 4096), UInt8.ofNat (0x80 + n / 64 % 64),
      UInt8.ofNat (0x80 + n % 64)]
  else
    some [UInt8.ofNat (0xf0 + n / 262144), UInt8.ofNat (0x80 + n / 4096 % 64),
      UInt8.ofNat (0x80 + n / 64 % 64), UInt8.ofNat (0x80 + n % 64)]

/-- `encode("utf-8")`, or nothing where it raises. -/
def encode (s : Text) : Option (List UInt8) := (s.mapM encodeChar).map List.flatten

end Py
