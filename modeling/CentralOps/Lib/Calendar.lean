import CentralOps.Lib.PyText

namespace Py
set_option autoImplicit true

def isLeap (year : Nat) : Bool := year % 4 == 0 && (year % 100 != 0 || year % 400 == 0)

def daysInMonth (year month : Nat) : Nat :=
  if month = 2 ∧ isLeap year then 29
  else ([0, 31, 28, 31, 30, 31, 30, 31, 31, 30, 31, 30, 31][month]?).getD 0

def daysBeforeMonth (year month : Nat) : Nat :=
  ((List.range month).map (daysInMonth year)).sum

/-- `date.toordinal`: the first of January of year 1 is day 1. -/
def toOrdinal (year month day : Nat) : Nat :=
  let y := year - 1
  y * 365 + y / 4 - y / 100 + y / 400 + daysBeforeMonth year month + day

/-- `date.fromordinal`. -/
def ofOrdinal (ordinal : Nat) : Nat × Nat × Nat :=
  let n := ordinal - 1
  let n400 := n / 146097
  let n := n % 146097
  let n100 := n / 36524
  let n := n % 36524
  let n4 := n / 1461
  let n := n % 1461
  let n1 := n / 365
  let n := n % 365
  let year := n400 * 400 + 1 + n100 * 100 + n4 * 4 + n1
  if n1 = 4 ∨ n100 = 4 then (year - 1, 12, 31)
  else
    let month := (List.range 13).countP (fun m => 1 ≤ m && daysBeforeMonth year m ≤ n)
    (year, month, n - daysBeforeMonth year month + 1)

def dayMicros : Nat := 86400000000

/-- The microseconds of the years 1 to 9999. -/
def wallLimit : Nat := 3652059 * dayMicros

/-- A `datetime`: its wall clock as microseconds since year 1, and its distance from UTC, which a
naive one does not have. -/
structure DateTime where
  wall : Nat
  inRange : wall < wallLimit
  offset : Option Int
  deriving DecidableEq

namespace DateTime

def ofWall (ordinal micros : Nat) (offset : Option Int) : Option DateTime :=
  let wall := (ordinal - 1) * dayMicros + micros
  if h : 1 ≤ ordinal ∧ wall < wallLimit then some ⟨wall, h.2, offset⟩ else none

def validDate (year month day : Nat) : Bool :=
  1 ≤ year && year ≤ 9999 && 1 ≤ month && month ≤ 12 && 1 ≤ day && day ≤ daysInMonth year month

def validTime (hour minute second : Nat) : Bool := hour < 24 && minute < 60 && second < 60

/-- `datetime(year, month, day, hour, minute, second)`, or nothing where it raises. -/
def make (year month day hour minute second : Nat) (offset : Option Int) : Option DateTime :=
  if validDate year month day ∧ validTime hour minute second then
    ofWall (toOrdinal year month day) (((hour * 60 + minute) * 60 + second) * 1000000) offset
  else none

/-- `datetime.now(timezone.utc)` at an instant. -/
def utc (instant : Fin wallLimit) : DateTime := ⟨instant, instant.isLt, some 0⟩

def utcWall (dt : DateTime) : Option Nat :=
  let utc : Int := dt.wall - dt.offset.getD 0
  if 0 ≤ utc ∧ utc < wallLimit then some utc.toNat else none

def date (dt : DateTime) : Nat × Nat × Nat := ofOrdinal (dt.wall / dayMicros + 1)

def year (dt : DateTime) : Nat := dt.date.1

end DateTime

def padded (width n : Nat) : Text :=
  let digits := text (toString n)
  List.replicate (width - digits.length) (ch '0') ++ digits

/-- `isoformat(timespec="milliseconds")` in UTC, with `Z` for its offset. -/
def isoMillis (wall : Nat) : Text :=
  let d := ofOrdinal (wall / dayMicros + 1)
  let micros := wall % dayMicros
  let seconds := micros / 1000000
  padded 4 d.1 ++ text "-" ++ padded 2 d.2.1 ++ text "-" ++ padded 2 d.2.2 ++ text "T" ++
    padded 2 (seconds / 3600) ++ text ":" ++ padded 2 (seconds / 60 % 60) ++ text ":" ++
    padded 2 (seconds % 60) ++ text "." ++ padded 3 (micros % 1000000 / 1000) ++ text "Z"

/-- `isoformat(timespec="seconds")` in UTC, with `Z` for its offset. -/
def isoSeconds (wall : Nat) : Text :=
  let d := ofOrdinal (wall / dayMicros + 1)
  let seconds := wall % dayMicros / 1000000
  padded 4 d.1 ++ text "-" ++ padded 2 d.2.1 ++ text "-" ++ padded 2 d.2.2 ++ text "T" ++
    padded 2 (seconds / 3600) ++ text ":" ++ padded 2 (seconds / 60 % 60) ++ text ":" ++
    padded 2 (seconds % 60) ++ text "Z"

namespace Iso

/-- A byte of a C string: past its end stands a NUL. -/
def byteAt (s : List UInt8) (i : Nat) : UInt8 := s.getD i 0

def isDigit (b : UInt8) : Bool := 48 ≤ b && b ≤ 57

/-- `parse_digits`: the value of so many digits, and what follows them. -/
def digits (s : List UInt8) (n : Nat) : Option (Nat × List UInt8) :=
  if n ≤ s.length ∧ (s.take n).all isDigit then
    some ((s.take n).foldl (fun v b => 10 * v + (b.toNat - 48)) 0, s.drop n)
  else none

/-- `_find_isoformat_datetime_separator`. -/
def separator (s : List UInt8) : Option Nat :=
  let n := s.length
  if n = 7 then some 7
  else if byteAt s 4 = 45 then
    if byteAt s 5 = 87 then
      if n < 8 then none
      else if n > 8 ∧ byteAt s 8 = 45 then
        if n = 9 then none
        else if n > 10 ∧ isDigit (byteAt s 10) then some 8
        else some 10
      else some 8
    else some 10
  else if byteAt s 4 = 87 then
    let pos := 7 + ((s.drop 7).takeWhile isDigit).length
    if pos < 9 then some pos
    else if pos % 2 = 0 then some 7
    else some 8
  else some 8

/-- `iso_to_ymd`, as an ordinal. -/
def isoWeek (year week day : Nat) : Option Nat :=
  let first := toOrdinal year 1 1
  let weekday := (first + 6) % 7
  let long := weekday = 3 ∨ weekday = 2 ∧ isLeap year
  if 1 ≤ year ∧ year ≤ 9999 ∧ (1 ≤ week ∧ week ≤ 52 ∨ week = 53 ∧ long) ∧ 1 ≤ day ∧ day ≤ 7 then
    let monday := if weekday > 3 then first - weekday + 7 else first - weekday
    some (monday + (week - 1) * 7 + (day - 1))
  else none

/-- `parse_isoformat_date` of the first bytes, as an ordinal. -/
def date (s : List UInt8) (len : Nat) : Option Nat := do
  let (year, p) ← digits s 4
  let separated := byteAt p 0 = 45
  let p := if separated then p.drop 1 else p
  let used := if separated then 5 else 4
  if byteAt p 0 = 87 then
    let (week, p) ← digits (p.drop 1) 2
    if used + 3 < len then
      if separated ∧ byteAt p 0 ≠ 45 then none
      else
        let (day, _) ← digits (if separated then p.drop 1 else p) 1
        isoWeek year week day
    else isoWeek year week 1
  else
    let (month, p) ← digits p 2
    if separated ∧ byteAt p 0 ≠ 45 then none
    else
      let (day, _) ← digits (if separated then p.drop 1 else p) 2
      let used := if separated then 10 else 8
      if used = len ∧ DateTime.validDate year month day then some (toOrdinal year month day)
      else none

structure Clock where
  hour : Nat := 0
  minute : Nat := 0
  second : Nat := 0
  micro : Nat := 0
  leftover : Bool := false

def Clock.put (c : Clock) (i v : Nat) : Clock :=
  match i with
  | 0 => { c with hour := v }
  | 1 => { c with minute := v }
  | _ => { c with second := v }

def fraction (c : Clock) (s : List UInt8) (len : Nat) : Option Clock := do
  let n := min len 6
  let (v, rest) ← digits s n
  let rest := rest.dropWhile isDigit
  some { c with micro := v * 10 ^ (6 - n), leftover := byteAt rest 0 ≠ 0 }

/-- The loop of `parse_hh_mm_ss_ff`: fields still to read, whether colons separate them, and how
many bytes are there. -/
def fields (c : Clock) (separated : Bool) : Nat → List UInt8 → Nat → Option Clock
  | 0, s, len => fraction c s len
  | todo + 1, s, len => do
    let i := 2 - todo
    let (v, p) ← digits s 2
    let c := c.put i v
    let b := byteAt p 0
    let separated := if i = 0 then b = 58 else separated
    if len ≤ 3 then some { c with leftover := b ≠ 0 }
    else if separated ∧ b = 58 then fields c separated todo (p.drop 1) (len - 3)
    else if b = 46 ∨ b = 44 then fraction c (p.drop 1) (len - 3)
    else if ¬ separated then fields c separated todo p (len - 2)
    else none

def clock (s : List UInt8) (len : Nat) : Option Clock := fields {} true 3 s len

/-- `parse_isoformat_time`: the clock and the offset from UTC. -/
def time (s : List UInt8) : Option (Clock × Option Int) := do
  let tz := (s.takeWhile (fun b => b ≠ 43 && b ≠ 45 && b ≠ 90)).length
  let c ← clock s tz
  match s.drop tz with
  | [] => if c.leftover then none else some (c, none)
  | b :: rest =>
    if b = 90 then
      if byteAt rest 0 ≠ 0 then none else some (c, some 0)
    else
      let z ← clock rest rest.length
      let seconds := z.hour * 3600 + z.minute * 60 + z.second
      let micros := seconds * 1000000 + z.micro
      if z.leftover ∨ micros ≥ dayMicros then none
      else if seconds = 0 then some (c, some 0)
      else some (c, some (if b = 45 then -(micros : Int) else micros))

def sanitize (s : Text) : Text :=
  let surrogate := fun i => ((s[i]?).map isSurrogate).getD false
  match [7, 8, 10].find? surrogate with
  | some i => s.set i (ch 'T')
  | none => s

/-- How many bytes the character with this first byte has. -/
def charLength (b : UInt8) : Nat :=
  if b < 0x80 then 1 else if b &&& 0xf0 = 0xe0 then 3 else if b &&& 0xf0 = 0xf0 then 4 else 2

end Iso

/-- `datetime.fromisoformat`, or nothing where it raises `ValueError`. -/
def fromIsoFormat (s : Text) : Option DateTime := do
  if s.length < 7 then none
  else
    let bytes ← encode (Iso.sanitize s)
    let sep ← Iso.separator bytes
    let ordinal ← Iso.date bytes sep
    match bytes.drop sep with
    | [] => DateTime.ofWall ordinal 0 none
    | b :: _ =>
      let (c, offset) ← Iso.time (bytes.drop (sep + Iso.charLength b))
      if DateTime.validTime c.hour c.minute c.second then
        DateTime.ofWall ordinal (((c.hour * 60 + c.minute) * 60 + c.second) * 1000000 + c.micro)
          offset
      else none

end Py
