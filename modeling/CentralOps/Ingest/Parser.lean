import CentralOps.Lib.Calendar
import CentralOps.Lib.Dict

namespace CentralOps
namespace Syslog
set_option autoImplicit true

open Py

/-- What a parser raises. -/
inductive Trouble where
  | valueError
  | overflowError
  | typeError
  deriving DecidableEq

/-- What is given to `parse_syslog_line`. -/
inductive RawLine where
  | bytes (bs : List UInt8)
  | str (s : Text)

def RawLine.decoded : RawLine → Text
  | .bytes bs => decode bs
  | .str s => s

def facilityNames : List String :=
  ["kern", "user", "mail", "daemon", "auth", "syslog", "lpr", "news", "uucp", "cron", "authpriv",
    "ftp", "ntp", "audit", "alert", "clock", "local0", "local1", "local2", "local3", "local4",
    "local5", "local6", "local7"]

def severityNames : List String :=
  ["emergency", "alert", "critical", "error", "warning", "notice", "informational", "debug"]

structure PriFields where
  pri : Option Nat
  facility : Option Nat
  facilityName : Option String
  severity : Option Nat
  severityName : Option String
  deriving DecidableEq

structure Cef where
  version : Text
  vendor : Text
  product : Text
  productVersion : Text
  signatureId : Text
  name : Text
  severity : Text
  ext : Dict Text Text

structure Leef where
  version : Text
  vendor : Text
  product : Text
  productVersion : Text
  eventId : Text
  ext : Dict Text Text

inductive Format where
  | rfc5424
  | rfc3164
  | unknown
  deriving DecidableEq

structure Event where
  format : Format := .unknown
  raw : Text
  pri : PriFields
  version : Nat := 0
  timestamp : Option Text := none
  tsInferred : Bool := false
  host : Option Text := none
  app : Option Text := none
  procid : Option Text := none
  msgid : Option Text := none
  sd : Dict Text (Dict Text Text) := .empty
  msg : Text
  cef : Option Cef := none
  leef : Option Leef := none

section Regexes

def lit (c : CodePoint) : Text → Option Text
  | [] => none
  | d :: s => if d = c then some s else none

/-- A run of decimal digits of a length between the bounds, and what follows it. -/
def digits (low high : Nat) (s : Text) : Option (Text × Text) :=
  let run := s.takeWhile isDecimal
  if low ≤ run.length ∧ run.length ≤ high then some (run, s.dropWhile isDecimal) else none

def spaces (low high : Nat) (s : Text) : Option (Text × Text) :=
  let run := s.takeWhile isSpace
  if low ≤ run.length ∧ run.length ≤ high then some (run, s.dropWhile isSpace) else none

/-- `\s+`. -/
def gap (s : Text) : Option Text := (spaces 1 s.length s).map Prod.snd

/-- `\S+`. -/
def word (s : Text) : Option (Text × Text) :=
  let run := s.takeWhile (fun c => !isSpace c)
  if run = [] then none else some (run, s.dropWhile (fun c => !isSpace c))

def upper (c : CodePoint) : Bool := 65 ≤ c.val && c.val ≤ 90

def lower (c : CodePoint) : Bool := 97 ≤ c.val && c.val ≤ 122

def asciiDigit (c : CodePoint) : Bool := 48 ≤ c.val && c.val ≤ 57

/-- `<(\d{1,3})>`. -/
def priTag (s : Text) : Option (Text × Text) := do
  let s ← lit (ch '<') s
  let (pri, s) ← digits 1 3 s
  let s ← lit (ch '>') s
  return (pri, s)

structure Rfc5424 where
  pri : Text
  version : Text
  ts : Text
  host : Text
  app : Text
  procid : Text
  msgid : Text
  rest : Text

/-- `_RFC5424_RE`. -/
def rfc5424Re (line : Text) : Option Rfc5424 := do
  let (pri, s) ← priTag line
  let (version, s) ← digits 1 2 s
  let s ← gap s
  let (ts, s) ← word s
  let s ← gap s
  let (host, s) ← word s
  let s ← gap s
  let (app, s) ← word s
  let s ← gap s
  let (procid, s) ← word s
  let s ← gap s
  let (msgid, s) ← word s
  let rest ← gap s
  return ⟨pri, version, ts, host, app, procid, msgid, rest⟩

/-- The month, the day and the time of day of RFC 3164, as one text. -/
def bsdTime (s : Text) : Option (Text × Text) := do
  let (mon, s) ←
    match s with
    | a :: b :: c :: s => if upper a ∧ lower b ∧ lower c then some ([a, b, c], s) else none
    | _ => none
  let (gap₁, s) ← spaces 1 2 s
  let (day, s) ← digits 1 2 s
  let (gap₂, s) ←
    match s with
    | c :: s => if isSpace c then some ([c], s) else none
    | [] => none
  let (hour, s) ← digits 2 2 s
  let s ← lit (ch ':') s
  let (minute, s) ← digits 2 2 s
  let s ← lit (ch ':') s
  let (second, s) ← digits 2 2 s
  return (mon ++ gap₁ ++ day ++ gap₂ ++ hour ++ text ":" ++ minute ++ text ":" ++ second, s)

structure Rfc3164 where
  pri : Option Text
  ts : Text
  host : Text
  rest : Text

/-- `_RFC3164_RE`. -/
def rfc3164Re (line : Text) : Option Rfc3164 := do
  let (pri, s) := match priTag line with
    | some (pri, s) => (some pri, s)
    | none => (none, line)
  let (ts, s) ← bsdTime s
  let s ← gap s
  let (host, s) ← word s
  let rest ← gap s
  return ⟨pri, ts, host, rest⟩

def tagChar (c : CodePoint) : Bool :=
  upper c || lower c || asciiDigit c || [ch '_', ch '.', ch '/', ch '-'].contains c

structure Tag where
  app : Text
  pid : Option Text
  msg : Text

/-- `\[([^\]]+)\]`. -/
def bracketed (s : Text) : Option (Text × Text) := do
  let s ← lit (ch '[') s
  let pid := s.takeWhile (· ≠ ch ']')
  let s ← lit (ch ']') (s.dropWhile (· ≠ ch ']'))
  if pid = [] then none else some (pid, s)

/-- `_TAG_RE`. -/
def tagRe (rest : Text) : Option Tag := do
  let app := rest.takeWhile tagChar
  let s := rest.dropWhile tagChar
  if app = [] then none
  else
    let (pid, s) := match bracketed s with
      | some (pid, s) => (some pid, s)
      | none => (none, s)
    let s ← lit (ch ':') s
    match s with
    | c :: msg => some ⟨app, pid, if isSpace c then msg else s⟩
    | [] => some ⟨app, pid, []⟩

end Regexes

def priFields (pri : Option Nat) : PriFields :=
  match pri with
  | none => ⟨none, none, none, none, none⟩
  | some n =>
    if n > 191 then ⟨none, none, none, none, none⟩
    else
      let fac := n / 8
      let sev := n % 8
      ⟨some n, some fac, some ((facilityNames[fac]?).getD (toString fac)), some sev,
        severityNames[sev]?⟩

/-- `_iso`: a conversion to UTC that leaves the years 1 to 9999 overflows. -/
def iso (dt : DateTime) : Except Trouble Text :=
  match dt.utcWall with
  | some utc => .ok (isoMillis utc)
  | none => .error .overflowError

/-- What `_parse_5424_ts` makes of a time before it converts it. -/
def isoDate (ts : Text) : Option DateTime := fromIsoFormat (replace (text "Z") (text "+00:00") ts)

def parse5424Ts (ts : Text) : Except Trouble (Option Text) :=
  if ts = text "-" then .ok none
  else
    match isoDate ts with
    | none => .ok none
    | some dt => (iso dt).map some

/-- `_MONTHS`. -/
def months : List Text :=
  ["Jan", "Feb", "Mar", "Apr", "May", "Jun", "Jul", "Aug", "Sep", "Oct", "Nov", "Dec"].map text

def monthNumber (mon : Text) : Option Nat := (months.findIdx? (· == mon)).map (· + 1)

def bsdDate (ts : Text) (year : Nat) : Option DateTime :=
  match words ts with
  | [mon, day, hms] =>
    match split (text ":") hms with
    | [h, mi, s] => do
      let month ← monthNumber mon
      DateTime.make year month (decimalValue day) (decimalValue h) (decimalValue mi)
        (decimalValue s) (some 0)
    | _ => none
  | _ => none

def ahead (dt : DateTime) (now : Nat) (offset : Int) : Bool :=
  (dt.wall : Int) > (now - now % 1000000 : Nat) - offset &&
    ((dt.wall : Int) - (now - offset)) / dayMicros > 1

/-- Comparing the date with a naive `now` raises `TypeError`. -/
def parse3164Ts (ts : Text) (now : DateTime) : Except Trouble (Option Text) :=
  match bsdDate ts now.year with
  | none => .ok none
  | some dt =>
    match now.offset with
    | none => .error .typeError
    | some offset =>
      if ahead dt now.wall offset then
        match bsdDate ts (now.year - 1) with
        | none => .ok none
        | some dt => .ok (some (isoMillis dt.wall))
      else .ok (some (isoMillis dt.wall))

def quoted (v : Text) : Text → Text × Text
  | [] => (v, [])
  | [c] => if c = ch '"' then (v, []) else (v ++ [c], [])
  | c :: e :: s =>
    if c = ch '\\' ∧ [ch '"', ch ']', ch '\\'].contains e then quoted (v ++ [e]) s
    else if c = ch '"' then (v, e :: s)
    else quoted (v ++ [c]) (e :: s)

theorem length_quoted_le (v s : Text) : (quoted v s).2.length ≤ s.length := by
  fun_induction quoted v s with
  | case1 => simp
  | case2 => simp
  | case3 => simp
  | case4 v c e s _ ih =>
    simp only [List.length_cons]
    omega
  | case5 => simp
  | case6 v c e s _ _ ih =>
    simp only [List.length_cons] at ih ⊢
    omega

/-- How the loop over the parameters of an element ends: at its bracket or the end of the text, or
where a parameter cannot be read. -/
inductive ParamsEnd where
  | closed (params : Dict Text Text) (rest : Text)
  | broken (rest : Text)

def ParamsEnd.rest : ParamsEnd → Text
  | .closed _ rest => rest
  | .broken rest => rest

/-- The loop over the parameters of an element. -/
def readParams (params : Dict Text Text) (s : Text) : ParamsEnd :=
  if s = [] ∨ s.head? = some (ch ']') then .closed params s
  else
    let t := s.dropWhile (· = ch ' ')
    if t.head? = some (ch ']') then .closed params t
    else
      match _h : t.dropWhile (· ≠ ch '=') with
      | _ :: q :: value =>
        if q = ch '"' then
          readParams (params.set (t.takeWhile (· ≠ ch '=')) (quoted [] value).1)
            (quoted [] value).2
        else .broken t
      | _ => .broken t
  termination_by s.length
  decreasing_by
    have h₁ := length_quoted_le [] value
    have h₂ : t.length ≤ s.length := (List.dropWhile_suffix _).length_le
    have h₃ : (t.dropWhile (· ≠ ch '=')).length ≤ t.length := (List.dropWhile_suffix _).length_le
    rw [_h] at h₃
    simp only [List.length_cons] at h₃
    omega

theorem length_readParams_le (params : Dict Text Text) (s : Text) :
    (readParams params s).rest.length ≤ s.length := by
  fun_induction readParams params s with
  | case1 => exact Nat.le_refl _
  | case2 params s _ t _ => exact (List.dropWhile_suffix _).length_le
  | case3 params s _ t _ _ value h ih =>
    have h₁ := length_quoted_le [] value
    have h₂ : t.length ≤ s.length := (List.dropWhile_suffix _).length_le
    have h₃ : (t.dropWhile (· ≠ ch '=')).length ≤ t.length := (List.dropWhile_suffix _).length_le
    rw [h] at h₃
    simp only [List.length_cons] at h₃
    omega
  | case4 params s _ t _ _ _ => exact (List.dropWhile_suffix _).length_le
  | case5 params s _ t _ _ => exact (List.dropWhile_suffix _).length_le

/-- The loop over the elements of structured data. -/
def readElements (sd : Dict Text (Dict Text Text)) (s : Text) : Dict Text (Dict Text Text) × Text :=
  match s with
  | [] => (sd, [])
  | c :: s =>
    if c = ch '[' then
      let outside := fun d => d = ch ' ' || d = ch ']'
      let name := s.takeWhile (fun d => !outside d)
      match _h : readParams .empty (s.dropWhile (fun d => !outside d)) with
      | .closed params rest => readElements (sd.set name params) (rest.drop 1)
      | .broken rest => (sd, rest)
    else (sd, lstrip isSpace (c :: s))
  termination_by s.length
  decreasing_by
    have h₁ := length_readParams_le .empty (s.dropWhile (fun d => !outside d))
    have h₂ : (s.dropWhile (fun d => !outside d)).length ≤ s.length :=
      (List.dropWhile_suffix _).length_le
    rw [_h] at h₁
    simp only [ParamsEnd.rest] at h₁
    simp only [List.length_drop, List.length_cons]
    omega

def parseStructuredData (rest : Text) : Dict Text (Dict Text Text) × Text :=
  match lit (ch '-') rest with
  | some s => (.empty, lstrip isSpace s)
  | none => readElements .empty rest

/-- The key and the value around the first `=`. -/
def keyValue (part : Text) : Option (Text × Text) :=
  match part.dropWhile (· ≠ ch '=') with
  | [] => none
  | _ :: v => some (part.takeWhile (· ≠ ch '='), v)

/-- `[A-Za-z0-9_.]+=`. -/
def startsPair (s : Text) : Bool :=
  let token := fun c => upper c || lower c || asciiDigit c || c == ch '_' || c == ch '.'
  !(s.takeWhile token).isEmpty && (s.dropWhile token).head? == some (ch '=')

/-- `re.split` at the white space in front of a pair, with the part and the white space so far. -/
def splitPairs (part space : Text) : Text → List Text
  | [] => [part ++ space]
  | c :: s =>
    if isSpace c then splitPairs part (space ++ [c]) s
    else if space ≠ [] ∧ startsPair (c :: s) then part :: splitPairs [c] [] s
    else splitPairs (part ++ space ++ [c]) [] s

def splitExt (ext delim : Text) : Dict Text Text :=
  if ext = [] then .empty
  else if delim ≠ text " " then
    ((split delim ext).filterMap keyValue).foldl (fun d p => d.set (strip isSpace p.1) p.2) .empty
  else
    ((splitPairs [] [] (strip isSpace ext)).filterMap keyValue).foldl
      (fun d p => d.set p.1 (replace (text "\\\\") (text "\\")
        (replace (text "\\=") (text "=") p.2))) .empty

/-- The loop of `_cef_split`, with the fields still to read and the field so far. -/
def cefSplit : Nat → Text → Text → List Text
  | 0, _, s => [s]
  | _ + 1, _, [] => [[]]
  | n + 1, cur, c :: s =>
    if c = ch '\\' then
      match s with
      | [] => cefSplit (n + 1) (cur ++ [c]) []
      | d :: s => cefSplit (n + 1) (cur ++ [d]) s
    else if c = ch '|' then cur :: cefSplit n [] s
    else cefSplit (n + 1) (cur ++ [c]) s

def parseCef (msg : Text) : Option Cef :=
  match afterFirst (text "CEF:") msg with
  | none => none
  | some header =>
    match cefSplit 7 [] header with
    | [version, vendor, product, pversion, sig, name, sev, ext] =>
      some ⟨strip isSpace version, vendor, product, pversion, sig, name, sev,
        splitExt ext (text " ")⟩
    | _ => none

/-- `chr(n)`: a number that is no code point is a `ValueError`, one that is no C `int` either an
`OverflowError`. -/
def pyChr (n : Int) : Except Trouble CodePoint :=
  match chr n with
  | some c => .ok c
  | none => .error (if -2147483648 ≤ n ∧ n < 2147483648 then .valueError else .overflowError)

/-- Whether a delimiter is declared as `xHH`. -/
def hexDeclared (d : Text) : Bool := d.head? == some (ch 'x') && 1 < d.length

def delimiterOf (d : Text) : Except Trouble Text :=
  if hexDeclared d then
    match int16 (d.drop 1) with
    | none => .error .valueError
    | some n => (pyChr n).map (fun c => [c])
  else .ok (if d = [] then text "\t" else d)

/-- The sixth field of a LEEF 2 header, up to the `|` that ends it. -/
def delimiterField (version rest : Text) : Option Text :=
  if (text "2").isPrefixOf version ∧ rest ≠ [] ∧ rest.head? ≠ some (ch '|') ∧ ch '|' ∈ rest then
    some (rest.takeWhile (· ≠ ch '|'))
  else none

def parseLeef (msg : Text) : Except Trouble (Option Leef) :=
  match afterFirst (text "LEEF:") msg with
  | none => .ok none
  | some body =>
    match splitMax (ch '|') 5 body with
    | version :: vendor :: product :: pversion :: eventId :: more =>
      let rest := more.headD []
      let leef := fun delim rest : Text => some (⟨strip isSpace version, vendor, product, pversion,
        eventId, splitExt rest delim⟩ : Leef)
      match delimiterField (strip isSpace version) rest with
      | none => .ok (leef (text "\t") rest)
      | some d => (delimiterOf d).map (fun delim => leef delim (rest.drop (d.length + 1)))
    | _ => .ok none

/-- A group that is `-` says nothing. -/
def dashed (group : Text) : Option Text := if group = text "-" then none else some group

def match5424 (line : Text) : Option Rfc5424 :=
  (rfc5424Re line).filter (fun m => m.version == text "1")

def dropBom (msg : Text) : Text := if msg.head? = some 0xfeff then msg.drop 1 else msg

/-- The tag of a message; `CEF` and `LEEF` are none. -/
def tagOf (rest : Text) : Option Tag :=
  (tagRe rest).filter (fun t => t.app != text "CEF" && t.app != text "LEEF")

/-- The branches of `parse_syslog_line` over the formats. -/
def parseFormat (clock : Fin wallLimit) (now : Option DateTime) (line : Text) (out : Event) :
    Except Trouble Event :=
  match match5424 line with
  | some m => do
    let timestamp ← parse5424Ts m.ts
    let (sd, msg) := parseStructuredData m.rest
    return { out with
      pri := priFields (some (decimalValue m.pri))
      format := .rfc5424
      version := 1
      timestamp := timestamp
      host := dashed m.host
      app := dashed m.app
      procid := dashed m.procid
      msgid := dashed m.msgid
      sd := sd
      msg := dropBom msg }
  | none =>
    match rfc3164Re line with
    | some m => do
      let timestamp ← parse3164Ts m.ts (now.getD (.utc clock))
      let out := { out with
        pri := priFields (m.pri.map decimalValue)
        format := .rfc3164
        timestamp := timestamp
        tsInferred := timestamp.isSome
        host := some m.host }
      match tagOf m.rest with
      | some t => return { out with app := some t.app, procid := t.pid, msg := t.msg }
      | none => return { out with msg := m.rest }
    | none =>
      match priTag line with
      | some (pri, rest) =>
        return { out with pri := priFields (some (decimalValue pri)), msg := rest }
      | none => return out

def attach (out : Event) : Except Trouble Event :=
  match parseCef out.msg with
  | some cef => .ok { out with cef := some cef }
  | none => (parseLeef out.msg).map (fun leef => { out with leef := leef })

def lineBreak (c : CodePoint) : Bool := c == ch '\r' || c == ch '\n'

/-- The decoded line without the line breaks at its end. -/
def trimmed (raw : RawLine) : Text := rstrip lineBreak raw.decoded

/-- `parse_syslog_line`, with the instant that `datetime.now` reads. -/
def parseSyslogLine (clock : Fin wallLimit) (raw : RawLine) (now : Option DateTime) :
    Except Trouble Event := do
  let line := trimmed raw
  let out ← parseFormat clock now line { raw := line, msg := line, pri := priFields none }
  attach out

def messageOf (line : Text) : Text :=
  match match5424 line with
  | some m => dropBom (parseStructuredData m.rest).2
  | none =>
    match rfc3164Re line with
    | some m => ((tagOf m.rest).map Tag.msg).getD m.rest
    | none => ((priTag line).map Prod.snd).getD line

def declaredDelimiter (msg : Text) : Option Text :=
  match afterFirst (text "LEEF:") msg with
  | none => none
  | some body =>
    match splitMax (ch '|') 5 body with
    | version :: _ :: _ :: _ :: _ :: more => delimiterField (strip isSpace version) (more.headD [])
    | _ => none

/-- The priority is absent with its parts, or made of them. -/
def PriCoherent (p : PriFields) : Prop :=
  (p.pri = none ∧ p.facility = none ∧ p.severity = none) ∨
    ∃ n f s, p.pri = some n ∧ p.facility = some f ∧ p.severity = some s ∧ n = 8 * f + s ∧ n ≤ 191

/-- What a line asks of its reader: a time that stays in the years 1 to 9999 in UTC, a `now` with
an offset where a time without a year is read, and a hexadecimal delimiter that is a character. -/
structure Parses (now : Option DateTime) (line : Text) : Prop where
  inYears : ∀ m dt o, match5424 line = some m → isoDate m.ts = some dt → dt.offset = some o →
    0 ≤ dt.wall - o ∧ dt.wall - o < wallLimit
  aware : ∀ m t, match5424 line = none → rfc3164Re line = some m → now = some t → t.offset = none →
    bsdDate m.ts t.year = none
  delimiter : parseCef (messageOf line) = none → ∀ d, declaredDelimiter (messageOf line) = some d →
    hexDeclared d = true → ∃ n, int16 (d.drop 1) = some n ∧ 0 ≤ n ∧ n < 1114112

theorem priFields_coherent (pri : Option Nat) : PriCoherent (priFields pri) := by
  cases pri with
  | none => exact .inl ⟨rfl, rfl, rfl⟩
  | some n =>
    by_cases h : n > 191
    · simp [priFields, PriCoherent, h]
    · have hsplit := Nat.div_add_mod n 8
      right
      exact ⟨n, n / 8, n % 8, by simp [priFields, h], by simp [priFields, h],
        by simp [priFields, h], hsplit.symm, by omega⟩

theorem iso_ok_iff (dt : DateTime) :
    (∃ t, iso dt = .ok t) ↔
      ∀ o, dt.offset = some o → 0 ≤ dt.wall - o ∧ dt.wall - o < wallLimit := by
  have hwall := dt.inRange
  cases hoffset : dt.offset with
  | none =>
    have hin : (0 : Int) ≤ dt.wall ∧ (dt.wall : Int) < wallLimit := by omega
    simp [iso, DateTime.utcWall, hoffset, hin]
  | some o =>
    by_cases hin : 0 ≤ dt.wall - o ∧ dt.wall - o < wallLimit
    · constructor
      · intro _ o' ho'
        cases ho'
        exact hin
      · intro _
        exact ⟨isoMillis (dt.wall - o : Int).toNat, by
          simp only [iso, DateTime.utcWall, hoffset, Option.getD_some, hin, and_self, if_true]⟩
    · simp only [iso, DateTime.utcWall, hoffset, Option.getD_some, hin, if_false, Option.some.injEq,
        forall_eq', iff_false]
      rintro ⟨t, ht⟩
      cases ht

theorem map_ok_iff (x : Except Trouble α) (f : α → β) :
    (∃ b, x.map f = .ok b) ↔ ∃ a, x = .ok a := by
  cases x with
  | error e => simp [Except.map]
  | ok a => simp [Except.map]

theorem parse5424Ts_ok_iff (ts : Text) :
    (∃ t, parse5424Ts ts = .ok t) ↔ ∀ dt o, isoDate ts = some dt → dt.offset = some o →
      0 ≤ dt.wall - o ∧ dt.wall - o < wallLimit := by
  by_cases hdash : ts = text "-"
  · subst hdash
    have hnone : isoDate (text "-") = none := by decide +kernel
    simp [parse5424Ts, hnone]
  · cases hdate : isoDate ts with
    | none => simp [parse5424Ts, hdash, hdate]
    | some dt =>
      simp only [parse5424Ts, hdash, if_false, hdate, map_ok_iff, iso_ok_iff]
      constructor
      · intro h d o hd
        cases hd
        exact h o
      · intro h o
        exact h dt o rfl

theorem parse3164Ts_ok_iff (ts : Text) (now : DateTime) :
    (∃ t, parse3164Ts ts now = .ok t) ↔ (now.offset = none → bsdDate ts now.year = none) := by
  cases hdate : bsdDate ts now.year with
  | none => simp [parse3164Ts, hdate]
  | some dt =>
    cases hoffset : now.offset with
    | none => simp [parse3164Ts, hdate, hoffset]
    | some o =>
      by_cases hahead : ahead dt now.wall o = true
      · cases hlast : bsdDate ts (now.year - 1) with
        | none => simp [parse3164Ts, hdate, hoffset, hahead, hlast]
        | some last => simp [parse3164Ts, hdate, hoffset, hahead, hlast]
      · simp [parse3164Ts, hdate, hoffset, hahead]

theorem pyChr_ok_iff (n : Int) : (∃ c, pyChr n = .ok c) ↔ 0 ≤ n ∧ n < 1114112 := by
  by_cases h : 0 ≤ n ∧ n < 1114112
  · simp [pyChr, chr, h]
  · simp [pyChr, chr, h]

theorem delimiterOf_ok_iff (d : Text) :
    (∃ t, delimiterOf d = .ok t) ↔
      (hexDeclared d = true → ∃ n, int16 (d.drop 1) = some n ∧ 0 ≤ n ∧ n < 1114112) := by
  cases hhex : hexDeclared d with
  | false => simp [delimiterOf, hhex]
  | true =>
    cases hint : int16 (d.drop 1) with
    | none => simp only [delimiterOf, hhex, if_true, hint, reduceCtorEq, exists_false,
        true_implies, false_and]
    | some n =>
      simp only [delimiterOf, hhex, if_true, hint, map_ok_iff, pyChr_ok_iff, true_implies,
        Option.some.injEq, exists_eq_left']

theorem parseLeef_ok_iff (msg : Text) :
    (∃ r, parseLeef msg = .ok r) ↔ ∀ d, declaredDelimiter msg = some d → hexDeclared d = true →
      ∃ n, int16 (d.drop 1) = some n ∧ 0 ≤ n ∧ n < 1114112 := by
  cases hbody : afterFirst (text "LEEF:") msg with
  | none => simp [parseLeef, declaredDelimiter, hbody]
  | some body =>
    simp only [parseLeef, declaredDelimiter, hbody]
    split
    · rename_i version _ _ _ _ more _
      cases hfield : delimiterField (strip isSpace version) (more.headD []) with
      | none => simp
      | some d => simp only [map_ok_iff, delimiterOf_ok_iff, Option.some.injEq, forall_eq']
    · simp

theorem attach_ok_iff (out : Event) :
    (∃ out', attach out = .ok out') ↔ (parseCef out.msg = none → ∀ d,
      declaredDelimiter out.msg = some d → hexDeclared d = true →
        ∃ n, int16 (d.drop 1) = some n ∧ 0 ≤ n ∧ n < 1114112) := by
  cases hcef : parseCef out.msg with
  | none => simp only [attach, hcef, map_ok_iff, parseLeef_ok_iff, true_implies]
  | some cef => simp [attach, hcef]

theorem attach_frame (h : attach out = .ok out') : out'.raw = out.raw ∧ out'.pri = out.pri := by
  cases hcef : parseCef out.msg with
  | none =>
    cases hleef : parseLeef out.msg with
    | error e => simp [attach, hcef, hleef, Except.map] at h
    | ok leef =>
      simp only [attach, hcef, hleef, Except.map, Except.ok.injEq] at h
      subst h
      exact ⟨rfl, rfl⟩
  | some cef =>
    simp only [attach, hcef, Except.ok.injEq] at h
    subst h
    exact ⟨rfl, rfl⟩

theorem parseFormat_ok_iff (clock : Fin wallLimit) (now : Option DateTime) (line : Text)
    (out : Event) :
    (∃ out', parseFormat clock now line out = .ok out') ↔
      (∀ m dt o, match5424 line = some m → isoDate m.ts = some dt → dt.offset = some o →
        0 ≤ dt.wall - o ∧ dt.wall - o < wallLimit) ∧
      (∀ m t, match5424 line = none → rfc3164Re line = some m → now = some t → t.offset = none →
        bsdDate m.ts t.year = none) := by
  cases h5424 : match5424 line with
  | some m =>
    have hts := parse5424Ts_ok_iff m.ts
    cases hparse : parse5424Ts m.ts with
    | error e =>
      rw [hparse] at hts
      have hfails : ¬ ∀ dt o, isoDate m.ts = some dt → dt.offset = some o →
          0 ≤ dt.wall - o ∧ dt.wall - o < wallLimit := by
        intro h
        obtain ⟨t, ht⟩ := hts.mpr h
        cases ht
      constructor
      · rintro ⟨out', h⟩
        simp [parseFormat, h5424, hparse, bind, Except.bind] at h
      · rintro ⟨h, -⟩
        exact absurd (fun dt o => h m dt o rfl) hfails
    | ok t =>
      constructor
      · intro _
        refine ⟨?_, by simp⟩
        intro m' dt o hm
        cases hm
        exact hts.mp ⟨t, hparse⟩ dt o
      · intro _
        simp [parseFormat, h5424, hparse, bind, Except.bind, pure, Except.pure]
  | none =>
    cases h3164 : rfc3164Re line with
    | none =>
      cases hpri : priTag line with
      | none => simp [parseFormat, h5424, h3164, hpri, pure, Except.pure]
      | some p => simp [parseFormat, h5424, h3164, hpri, pure, Except.pure]
    | some m =>
      have hts := parse3164Ts_ok_iff m.ts (now.getD (.utc clock))
      have haware : ((now.getD (.utc clock)).offset = none →
          bsdDate m.ts (now.getD (.utc clock)).year = none) ↔
          ∀ t, now = some t → t.offset = none → bsdDate m.ts t.year = none := by
        cases now with
        | none => simp [DateTime.utc]
        | some t => simp
      cases hparse : parse3164Ts m.ts (now.getD (.utc clock)) with
      | error e =>
        rw [hparse, haware] at hts
        constructor
        · rintro ⟨out', h⟩
          simp [parseFormat, h5424, h3164, hparse, bind, Except.bind] at h
        · rintro ⟨-, h⟩
          obtain ⟨t, ht⟩ := hts.mpr (fun t => h m t rfl rfl)
          cases ht
      | ok t =>
        constructor
        · intro _
          refine ⟨by simp, ?_⟩
          intro m' t' _ hm
          cases hm
          exact haware.mp (hts.mp ⟨t, hparse⟩) t'
        · intro _
          cases htag : tagOf m.rest with
          | none =>
            simp [parseFormat, h5424, h3164, hparse, htag, bind, Except.bind, pure, Except.pure]
          | some tag =>
            simp [parseFormat, h5424, h3164, hparse, htag, bind, Except.bind, pure, Except.pure]

theorem parseFormat_frame (h : parseFormat clock now line out = .ok out') (hmsg : out.msg = line)
    (hpri : PriCoherent out.pri) :
    out'.msg = messageOf line ∧ out'.raw = out.raw ∧ PriCoherent out'.pri := by
  cases h5424 : match5424 line with
  | some m =>
    cases hparse : parse5424Ts m.ts with
    | error e => simp [parseFormat, h5424, hparse, bind, Except.bind] at h
    | ok t =>
      simp only [parseFormat, h5424, hparse, bind, Except.bind, pure, Except.pure,
        Except.ok.injEq] at h
      subst h
      exact ⟨by simp [messageOf, h5424], rfl, priFields_coherent _⟩
  | none =>
    cases h3164 : rfc3164Re line with
    | none =>
      cases htag : priTag line with
      | none =>
        simp only [parseFormat, h5424, h3164, htag, pure, Except.pure, Except.ok.injEq] at h
        subst h
        exact ⟨by simp [messageOf, h5424, h3164, htag, hmsg], rfl, hpri⟩
      | some p =>
        simp only [parseFormat, h5424, h3164, htag, pure, Except.pure, Except.ok.injEq] at h
        subst h
        exact ⟨by simp [messageOf, h5424, h3164, htag], rfl, priFields_coherent _⟩
    | some m =>
      cases hparse : parse3164Ts m.ts (now.getD (.utc clock)) with
      | error e => simp [parseFormat, h5424, h3164, hparse, bind, Except.bind] at h
      | ok t =>
        cases htag : tagOf m.rest with
        | none =>
          simp only [parseFormat, h5424, h3164, hparse, htag, bind, Except.bind, pure, Except.pure,
            Except.ok.injEq] at h
          subst h
          exact ⟨by simp [messageOf, h5424, h3164, htag], rfl, priFields_coherent _⟩
        | some tag =>
          simp only [parseFormat, h5424, h3164, hparse, htag, bind, Except.bind, pure, Except.pure,
            Except.ok.injEq] at h
          subst h
          exact ⟨by simp [messageOf, h5424, h3164, htag], rfl, priFields_coherent _⟩

/-- A line is parsed, with its text as `raw` and a coherent priority, exactly when its time and its
delimiter can be read. -/
theorem parse_total (clock : Fin wallLimit) (raw : RawLine) (now : Option DateTime) :
    (∃ out, parseSyslogLine clock raw now = .ok out ∧ out.raw = trimmed raw ∧
      PriCoherent out.pri) ↔ Parses now (trimmed raw) := by
  have hformat := parseFormat_ok_iff clock now (trimmed raw)
    { raw := trimmed raw, msg := trimmed raw, pri := priFields none }
  cases hparse : parseFormat clock now (trimmed raw)
      { raw := trimmed raw, msg := trimmed raw, pri := priFields none } with
  | error e =>
    rw [hparse] at hformat
    constructor
    · rintro ⟨out, h, -⟩
      simp [parseSyslogLine, hparse, bind, Except.bind] at h
    · intro h
      obtain ⟨out, hout⟩ := hformat.mpr ⟨h.inYears, h.aware⟩
      cases hout
  | ok out =>
    obtain ⟨hmsg, hraw, hpri⟩ := parseFormat_frame hparse rfl (priFields_coherent none)
    obtain ⟨hyears, haware⟩ := hformat.mp ⟨out, hparse⟩
    have hline : parseSyslogLine clock raw now = attach out := by
      simp [parseSyslogLine, hparse, bind, Except.bind]
    have hattach := attach_ok_iff out
    rw [hmsg] at hattach
    rw [hline]
    constructor
    · rintro ⟨out', h, -⟩
      exact ⟨hyears, haware, hattach.mp ⟨out', h⟩⟩
    · intro h
      obtain ⟨out', hout'⟩ := hattach.mpr h.delimiter
      obtain ⟨hraw', hpri'⟩ := attach_frame hout'
      exact ⟨out', hout', hraw'.trans hraw, hpri' ▸ hpri⟩

/-- A delimiter that is no hexadecimal number, a time whose UTC lies before the year 1 and a naive
`now` each make the parser raise. -/
theorem parse_raises :
    (¬ ∃ out, parseSyslogLine ⟨0, by decide⟩
      (.bytes [76, 69, 69, 70, 58, 50, 124, 124, 124, 124, 124, 120, 122, 124]) none = .ok out) ∧
    (¬ ∃ out, parseSyslogLine ⟨0, by decide⟩
      (.str (text "<13>1 0001-01-01T00:00:00+01:00 h a p m - x")) none = .ok out) ∧
    (¬ ∃ out, parseSyslogLine ⟨0, by decide⟩ (.str (text "Sep 6 01:02:03 h x"))
      (some ⟨63924249600000000, by decide, none⟩) = .ok out) := by
  have hfails : ∀ x : Except Trouble Event, x.isOk = false → ¬ ∃ out, x = .ok out := by
    rintro x hx ⟨out, rfl⟩
    cases hx
  exact ⟨hfails _ (by decide +kernel), hfails _ (by decide +kernel), hfails _ (by decide +kernel)⟩

end Syslog
end CentralOps
