import Mathlib.Data.List.TakeWhile
import Mathlib.Data.Nat.Digits.Lemmas

namespace CentralOps
set_option autoImplicit true

abbrev Bytes := List UInt8

def lf : UInt8 := 10

/-- What `\d` matches in ASCII text. -/
def byteDigit (b : UInt8) : Bool := 48 ≤ b && b ≤ 57

/-- What `\s` matches in ASCII text. -/
def regexSpace (b : UInt8) : Bool := 9 ≤ b && b ≤ 13 || 28 ≤ b && b ≤ 32

/-- `int` of a run of digits. -/
def number (digits : Bytes) : Nat := digits.foldl (fun n d => 10 * n + (d.toNat - 48)) 0

/-- `_OCTET_RE` on the first nine bytes: where the match ends and the number it holds. -/
def octetMatch (line : Bytes) : Option (Nat × Nat) :=
  let digits := (line.take 9).takeWhile byteDigit
  match (line.take 9).drop digits.length with
  | [] => none
  | w :: _ =>
    if 1 ≤ digits.length ∧ digits.length ≤ 7 ∧ regexSpace w = true
    then some (digits.length + 1, number digits)
    else none

def stripOctetCount (line : Bytes) : Bytes × Option Nat :=
  match octetMatch line with
  | none => (line, none)
  | some (stop, n) =>
    let body := line.drop stop
    (if n ≤ body.length then body.take n else body, some n)

/-- `len(line)` as a decimal literal. -/
def decimal (n : Nat) : Bytes :=
  if n = 0 then [48] else (Nat.digits 10 n).reverse.map (fun d => UInt8.ofNat (48 + d))

/-- What `send_batch` writes for a line. -/
def frame (line : Bytes) : Bytes := decimal line.length ++ 32 :: line

structure Reader where
  buffer : Bytes
  incoming : List Bytes

inductive UntilReply where
  | chunk (bytes : Bytes)
  | incomplete (bytes : Bytes)
  | overrun

namespace Reader

def content (r : Reader) : Bytes := r.buffer ++ r.incoming.flatten

def arrive (r : Reader) (n : Nat) : Reader :=
  ⟨r.buffer ++ (r.incoming.take n).flatten, r.incoming.drop n⟩

/-- What `readuntil(LF)` finds in the buffer alone: its answer and the bytes it leaves. -/
def find (limit : Nat) (buffer : Bytes) : Option (UntilReply × Bytes) :=
  if lf ∈ buffer then
    let isep := buffer.idxOf lf
    if limit < isep then some (.overrun, buffer)
    else some (.chunk (buffer.take (isep + 1)), buffer.drop (isep + 1))
  else if limit < buffer.length then some (.overrun, buffer)
  else none

/-- `readuntil(LF)`: a wait brings the next segment. -/
def readUntil (limit : Nat) (buffer : Bytes) : List Bytes → UntilReply × Reader
  | [] =>
    match find limit buffer with
    | some (reply, left) => (reply, ⟨left, []⟩)
    | none => (.incomplete buffer, ⟨[], []⟩)
  | segment :: rest =>
    match find limit buffer with
    | some (reply, left) => (reply, ⟨left, segment :: rest⟩)
    | none => readUntil limit (buffer ++ segment) rest

def read (n : Nat) (buffer : Bytes) : List Bytes → Bytes × Reader
  | [] => (buffer.take n, ⟨buffer.drop n, []⟩)
  | segment :: rest =>
    if buffer = [] then read n segment rest
    else (buffer.take n, ⟨buffer.drop n, segment :: rest⟩)

/-- `readexactly(n)`, with the partial answer of an `IncompleteReadError` as its answer. -/
def readExactly (n : Nat) (buffer : Bytes) : List Bytes → Bytes × Reader
  | [] => (buffer.take n, ⟨buffer.drop n, []⟩)
  | segment :: rest =>
    if n ≤ buffer.length then (buffer.take n, ⟨buffer.drop n, segment :: rest⟩)
    else readExactly n (buffer ++ segment) rest

end Reader

section Serve
variable (maxLine : Nat) (raises : Nat → Bytes → Bool) (early : Reader → Nat)

def complete (chunk : Bytes) (r : Reader) : Bytes × Reader :=
  match stripOctetCount chunk with
  | (body, none) => (body, r)
  | (body, some declared) =>
    if body.length < declared then
      let r := r.arrive (early r)
      let more := Reader.readExactly (declared - body.length) r.buffer r.incoming
      (body ++ more.1, more.2)
    else (body, r)

def goesOn (chunk : Bytes) : Bool :=
  chunk.getLast? == some lf || (stripOctetCount chunk).2.isSome

/-- The loop of `_serve_stream`, through a number of polls: the lines it hands to `handle_line`.
The reader's limit and the receiver's `max_line` are the same setting. -/
def serveLoop : Nat → Nat → Reader → Option (List Bytes)
  | 0, _, _ => none
  | polls + 1, handled, r =>
    let r := r.arrive (early r)
    match Reader.readUntil maxLine r.buffer r.incoming with
    | (.overrun, r) =>
      let r := r.arrive (early r)
      serveLoop polls handled (Reader.read maxLine r.buffer r.incoming).2
    | (.incomplete [], _) => some []
    | (.incomplete chunk, r) | (.chunk chunk, r) =>
      let (body, r) := complete early chunk r
      if raises handled body || !goesOn chunk then some [body]
      else (serveLoop polls (handled + 1) r).map (body :: ·)

/-- `_serve_stream` over a stream that arrives in the given segments. -/
def serveStream (segments : List Bytes) : Option (List Bytes) :=
  serveLoop maxLine raises early (segments.flatten.length + 1) 0 ⟨[], segments⟩

end Serve

def chomp (line : Bytes) : Bytes := if line.getLast? = some lf then line.dropLast else line

/-- Octet-countPrefix frames give back their messages, however the stream is segmented. -/
def OctetRoundTrip (maxLine : Nat) (raises : Nat → Bytes → Bool) (messages : List Bytes) : Prop :=
  ∀ early segments, segments.flatten = messages.flatMap frame →
    serveStream maxLine raises early segments = some messages

/-- LF-terminated messages come back, each with the LF that ended it. -/
def LinesRoundTrip (maxLine : Nat) (raises : Nat → Bytes → Bool) (messages : List Bytes) : Prop :=
  ∀ early segments, segments.flatten = messages.flatMap (fun m => m ++ [lf]) →
    (serveStream maxLine raises early segments).map (List.map chomp) = some messages

/-- A decimal number followed by white space. -/
def startsCounted (line : Bytes) : Bool :=
  match line.dropWhile byteDigit with
  | [] => false
  | w :: _ => !(line.takeWhile byteDigit).isEmpty && regexSpace w

/-- Each frame can be read whole: its count has at most seven digits, its first LF (or its end)
comes within the limit, and one with a frame after it holds an LF and is handled. -/
def OctetFrames (maxLine : Nat) (raises : Nat → Bytes → Bool) : Nat → List Bytes → Prop
  | _, [] => True
  | handled, m :: ms =>
    m.length < 10 ^ 7 ∧ (frame m).idxOf lf ≤ maxLine ∧
      (ms ≠ [] → lf ∈ m ∧ raises handled m = false) ∧ OctetFrames maxLine raises (handled + 1) ms

/-- No message is one to seven digits, and one with another after it is handled. -/
def LineFrames (raises : Nat → Bytes → Bool) : Nat → List Bytes → Prop
  | _, [] => True
  | handled, m :: ms =>
    ¬ (m.all byteDigit = true ∧ m.length ≤ 7) ∧
      (ms ≠ [] → raises handled (m ++ [lf]) = false) ∧ LineFrames raises (handled + 1) ms

def headLine (c : Bytes) : Bytes := c.take (c.idxOf lf + 1)

def afterLine (c : Bytes) : Bytes := c.drop (c.idxOf lf + 1)

/-- What is handled of a content whose first line fits, and what is left. -/
def framed (c : Bytes) : Bytes × Bytes :=
  match stripOctetCount (headLine c) with
  | (body, none) => (body, afterLine c)
  | (body, some declared) =>
    if body.length < declared
    then (body ++ (afterLine c).take (declared - body.length),
      (afterLine c).drop (declared - body.length))
    else (body, afterLine c)

inductive Serves (maxLine : Nat) (raises : Nat → Bytes → Bool) : Nat → Bytes → List Bytes → Prop
  | done : Serves maxLine raises handled [] []
  | overrun : maxLine < c.idxOf lf → Serves maxLine raises handled (c.drop maxLine) calls →
      Serves maxLine raises handled c calls
  | last : c.idxOf lf ≤ maxLine → c ≠ [] →
      (raises handled (framed c).1 = true ∨ goesOn (headLine c) = false) →
      Serves maxLine raises handled c [(framed c).1]
  | next : c.idxOf lf ≤ maxLine → c ≠ [] → raises handled (framed c).1 = false →
      goesOn (headLine c) = true → Serves maxLine raises (handled + 1) (framed c).2 calls →
      Serves maxLine raises handled c ((framed c).1 :: calls)

namespace Reader

@[simp] theorem content_arrive (r : Reader) (n : Nat) : (r.arrive n).content = r.content := by
  simp only [content, arrive, List.append_assoc, ← List.flatten_append, List.take_append_drop]

theorem find_eq_none (h : find limit held = none) : lf ∉ held ∧ held.length ≤ limit := by
  by_cases hmem : lf ∈ held
  · by_cases hlong : limit < held.idxOf lf <;> simp [find, hmem, hlong] at h
  · by_cases hlong : limit < held.length
    · simp [find, hmem, hlong] at h
    · exact ⟨hmem, by omega⟩

theorem find_overrun (h : limit < (held ++ more).idxOf lf) (hfind : find limit held = some p) :
    p = (.overrun, held) ∧ limit < held.length := by
  by_cases hmem : lf ∈ held
  · have hlong : limit < held.idxOf lf := by rwa [List.idxOf_append_of_mem hmem] at h
    have hlt : held.idxOf lf < held.length := List.idxOf_lt_length_iff.mpr hmem
    simp only [find, hmem, if_pos, hlong, Option.some.injEq] at hfind
    exact ⟨hfind.symm, by omega⟩
  · by_cases hlong : limit < held.length
    · simp only [find, hmem, hlong, if_false, if_pos, Option.some.injEq] at hfind
      exact ⟨hfind.symm, hlong⟩
    · simp [find, hmem, hlong] at hfind

theorem find_fits (h : (held ++ more).idxOf lf ≤ limit) (hfind : find limit held = some p) :
    lf ∈ held ∧ p = (.chunk (headLine (held ++ more)), held.drop (held.idxOf lf + 1)) := by
  by_cases hmem : lf ∈ held
  · have hidx : (held ++ more).idxOf lf = held.idxOf lf := List.idxOf_append_of_mem hmem
    have hlt : held.idxOf lf < held.length := List.idxOf_lt_length_iff.mpr hmem
    have hfits : ¬ limit < held.idxOf lf := by omega
    simp only [find, hmem, if_pos, hfits, if_false, Option.some.injEq] at hfind
    refine ⟨hmem, ?_⟩
    rw [← hfind, headLine, hidx, List.take_append_of_le_length (by omega)]
  · have hidx : (held ++ more).idxOf lf = held.length + more.idxOf lf :=
      List.idxOf_append_of_notMem hmem
    have hlong : ¬ limit < held.length := by omega
    simp [find, hmem, hlong] at hfind

theorem readUntil_overrun (limit : Nat) (held : Bytes) (coming : List Bytes)
    (h : limit < (held ++ coming.flatten).idxOf lf) :
    ∃ r, readUntil limit held coming = (.overrun, r) ∧
      r.content = held ++ coming.flatten ∧ limit < r.buffer.length := by
  induction coming generalizing held with
  | nil =>
    cases hfind : find limit held with
    | none =>
      obtain ⟨hmem, hshort⟩ := find_eq_none hfind
      have := List.idxOf_le_length (a := lf) (l := held)
      simp only [List.flatten_nil, List.append_nil] at h
      omega
    | some p =>
      obtain ⟨rfl, hlong⟩ := find_overrun h hfind
      exact ⟨⟨held, []⟩, by simp [readUntil, hfind], rfl, hlong⟩
  | cons segment rest ih =>
    cases hfind : find limit held with
    | none =>
      obtain ⟨r, hr, hcontent, hlong⟩ := ih (held ++ segment) (by simpa using h)
      exact ⟨r, by simpa [readUntil, hfind] using hr, by simpa using hcontent, hlong⟩
    | some p =>
      obtain ⟨rfl, hlong⟩ := find_overrun h hfind
      exact ⟨⟨held, segment :: rest⟩, by simp [readUntil, hfind], rfl, hlong⟩

theorem readUntil_chunk (limit : Nat) (held : Bytes) (coming : List Bytes)
    (hfits : (held ++ coming.flatten).idxOf lf ≤ limit)
    (hmem : lf ∈ held ++ coming.flatten) :
    ∃ r, readUntil limit held coming = (.chunk (headLine (held ++ coming.flatten)), r) ∧
      r.content = afterLine (held ++ coming.flatten) := by
  induction coming generalizing held with
  | nil =>
    cases hfind : find limit held with
    | none => exact absurd (by simpa using hmem) (find_eq_none hfind).1
    | some p =>
      obtain ⟨-, rfl⟩ := find_fits hfits hfind
      exact ⟨⟨held.drop (held.idxOf lf + 1), []⟩, by simp [readUntil, hfind],
        by simp [content, afterLine]⟩
  | cons segment rest ih =>
    cases hfind : find limit held with
    | none =>
      obtain ⟨r, hr, hcontent⟩ := ih (held ++ segment) (by simpa using hfits)
        (by simpa using hmem)
      exact ⟨r, by simpa [readUntil, hfind] using hr, by simpa using hcontent⟩
    | some p =>
      obtain ⟨hin, rfl⟩ := find_fits hfits hfind
      have hlt : held.idxOf lf < held.length := List.idxOf_lt_length_iff.mpr hin
      refine ⟨⟨held.drop (held.idxOf lf + 1), segment :: rest⟩, by simp [readUntil, hfind], ?_⟩
      rw [afterLine, List.idxOf_append_of_mem hin, List.drop_append_of_le_length (by omega)]
      rfl

theorem readUntil_incomplete (limit : Nat) (held : Bytes) (coming : List Bytes)
    (hfits : (held ++ coming.flatten).idxOf lf ≤ limit)
    (hmem : lf ∉ held ++ coming.flatten) :
    readUntil limit held coming = (.incomplete (held ++ coming.flatten), ⟨[], []⟩) := by
  induction coming generalizing held with
  | nil =>
    cases hfind : find limit held with
    | none => simp [readUntil, hfind]
    | some p => exact absurd (List.mem_append_left _ (find_fits hfits hfind).1) hmem
  | cons segment rest ih =>
    cases hfind : find limit held with
    | none =>
      have := ih (held ++ segment) (by simpa using hfits) (by simpa using hmem)
      simpa [readUntil, hfind] using this
    | some p => exact absurd (List.mem_append_left _ (find_fits hfits hfind).1) hmem

theorem content_read (h : n ≤ held.length) (hn : 0 < n) :
    (read n held coming).2.content = (held ++ coming.flatten).drop n := by
  have hne : held ≠ [] := List.ne_nil_of_length_pos (by omega)
  cases coming with
  | nil => simp [read, content]
  | cons segment rest =>
    simp [read, hne, content, List.drop_append_of_le_length h]

theorem readExactly_eq (n : Nat) (held : Bytes) (coming : List Bytes) :
    (readExactly n held coming).1 = (held ++ coming.flatten).take n ∧
      (readExactly n held coming).2.content = (held ++ coming.flatten).drop n := by
  induction coming generalizing held with
  | nil => simp [readExactly, content]
  | cons segment rest ih =>
    by_cases h : n ≤ held.length
    · simp [readExactly, h, content, List.drop_append_of_le_length h,
        List.take_append_of_le_length h]
    · simpa [readExactly, h] using ih (held ++ segment)

end Reader

theorem complete_framed (early : Reader → Nat) (h : r.content = afterLine c) :
    (complete early (headLine c) r).1 = (framed c).1 ∧
      (complete early (headLine c) r).2.content = (framed c).2 := by
  rcases hstrip : stripOctetCount (headLine c) with ⟨body, _ | declared⟩
  · simp [complete, framed, hstrip, h]
  · by_cases hshort : body.length < declared
    · have hmore := Reader.readExactly_eq (declared - body.length) (r.arrive (early r)).buffer
        (r.arrive (early r)).incoming
      have hcontent : (r.arrive (early r)).buffer ++ (r.arrive (early r)).incoming.flatten
          = afterLine c := (r.content_arrive (early r)).trans h
      rw [hcontent] at hmore
      simp [complete, framed, hstrip, hshort, hmore]
    · simp [complete, framed, hstrip, hshort, h]

@[simp] theorem headLine_append_afterLine (c : Bytes) : headLine c ++ afterLine c = c :=
  List.take_append_drop _ c

theorem headLine_of_notMem (h : lf ∉ c) : headLine c = c := by
  have := List.idxOf_eq_length_iff.mpr h
  simp [headLine, this]

theorem afterLine_of_notMem (h : lf ∉ c) : afterLine c = [] := by
  have := List.idxOf_eq_length_iff.mpr h
  simp [afterLine, this]

theorem serveLoop_fits (hfits : c.idxOf lf ≤ maxLine) (hne : c ≠ []) (hr : r.content = c) :
    ∃ r', r'.content = (framed c).2 ∧ serveLoop maxLine raises early (polls + 1) handled r =
      if raises handled (framed c).1 || !goesOn (headLine c) then some [(framed c).1]
      else (serveLoop maxLine raises early polls (handled + 1) r').map ((framed c).1 :: ·) := by
  have hcontent : (r.arrive (early r)).buffer ++ (r.arrive (early r)).incoming.flatten = c :=
    (r.content_arrive (early r)).trans hr
  by_cases hmem : lf ∈ c
  · obtain ⟨s, hs, hleft⟩ := Reader.readUntil_chunk maxLine _ _
      (by rwa [hcontent]) (by rwa [hcontent])
    rw [hcontent] at hs hleft
    obtain ⟨hbody, hrest⟩ := complete_framed early hleft
    refine ⟨_, hrest, ?_⟩
    simp only [serveLoop, hs, hbody]
  · have hs := Reader.readUntil_incomplete maxLine _ _ (by rwa [hcontent])
      (by rwa [hcontent])
    rw [hcontent] at hs
    obtain ⟨hbody, hrest⟩ := complete_framed (c := c) (r := ⟨[], []⟩) early
      (by simp [Reader.content, afterLine_of_notMem hmem])
    rw [headLine_of_notMem hmem] at hbody hrest ⊢
    refine ⟨_, hrest, ?_⟩
    simp only [serveLoop, hs, hbody]

theorem serveLoop_overrun (hlong : maxLine < c.idxOf lf) (hpos : 0 < maxLine)
    (hr : r.content = c) :
    ∃ r', r'.content = c.drop maxLine ∧ serveLoop maxLine raises early (polls + 1) handled r =
      serveLoop maxLine raises early polls handled r' := by
  have hcontent : (r.arrive (early r)).buffer ++ (r.arrive (early r)).incoming.flatten = c :=
    (r.content_arrive (early r)).trans hr
  obtain ⟨s, hs, hleft, hheld⟩ := Reader.readUntil_overrun maxLine _ _ (by rwa [hcontent])
  have harrived : (s.arrive (early s)).buffer ++ (s.arrive (early s)).incoming.flatten = c :=
    (s.content_arrive (early s)).trans (hleft.trans hcontent)
  refine ⟨_, ?_, by simp only [serveLoop, hs]; rfl⟩
  rw [Reader.content_read _ hpos, harrived]
  simp only [Reader.arrive, List.length_append]
  omega

theorem serveLoop_empty (hr : r.content = []) :
    serveLoop maxLine raises early (polls + 1) handled r = some [] := by
  have hcontent : (r.arrive (early r)).buffer ++ (r.arrive (early r)).incoming.flatten = [] :=
    (r.content_arrive (early r)).trans hr
  have hs := Reader.readUntil_incomplete maxLine _ _
    (by rw [hcontent]; exact Nat.zero_le _) (by rw [hcontent]; exact List.not_mem_nil)
  rw [hcontent] at hs
  simp only [serveLoop, hs]

theorem length_framed_lt (h : c ≠ []) : (framed c).2.length < c.length := by
  have hafter : (afterLine c).length < c.length := by
    have := List.length_pos_of_ne_nil h
    simp only [afterLine, List.length_drop]
    omega
  rcases hstrip : stripOctetCount (headLine c) with ⟨body, _ | declared⟩
  · simpa [framed, hstrip] using hafter
  · by_cases hshort : body.length < declared
    · simp only [framed, hstrip, hshort, if_true, List.length_drop]
      omega
    · simpa [framed, hstrip, hshort] using hafter

theorem Serves.serveLoop (h : Serves maxLine raises handled c calls) (hpos : 0 < maxLine)
    (hr : r.content = c) (hpolls : c.length < polls) :
    serveLoop maxLine raises early polls handled r = some calls := by
  induction h generalizing r polls with
  | done =>
    obtain ⟨n, rfl⟩ := Nat.exists_eq_add_of_lt hpolls
    exact serveLoop_empty hr
  | overrun hlong _ ih =>
    obtain ⟨n, rfl⟩ := Nat.exists_eq_add_of_lt hpolls
    obtain ⟨r', hr', hstep⟩ := serveLoop_overrun hlong hpos hr
    rw [hstep]
    have := List.idxOf_le_length (a := lf) (l := r.content)
    exact ih hr' (by simp only [List.length_drop]; subst hr; omega)
  | last hfits hne hstop =>
    obtain ⟨n, rfl⟩ := Nat.exists_eq_add_of_lt hpolls
    obtain ⟨r', -, hstep⟩ := serveLoop_fits hfits hne hr
    rw [hstep, if_pos (by simpa using hstop)]
  | next hfits hne hraises hgoes _ ih =>
    obtain ⟨n, rfl⟩ := Nat.exists_eq_add_of_lt hpolls
    obtain ⟨r', hr', hstep⟩ := serveLoop_fits hfits hne hr
    have hless := length_framed_lt hne
    rw [hstep, if_neg (by simp [hraises, hgoes]), ih hr' (by omega)]
    rfl

theorem serves_of_serveLoop (hpos : 0 < maxLine) (hr : r.content = c)
    (h : serveLoop maxLine raises early polls handled r = some calls) :
    Serves maxLine raises handled c calls := by
  induction polls generalizing r c handled calls with
  | zero => simp [CentralOps.serveLoop] at h
  | succ polls ih =>
    by_cases hlong : maxLine < c.idxOf lf
    · obtain ⟨r', hr', hstep⟩ := serveLoop_overrun hlong hpos hr
      exact .overrun hlong (ih hr' (hstep.symm.trans h))
    · have hfits : c.idxOf lf ≤ maxLine := by omega
      by_cases hne : c = []
      · subst hne
        rw [serveLoop_empty hr, Option.some.injEq] at h
        subst h
        exact .done
      · obtain ⟨r', hr', hstep⟩ := serveLoop_fits hfits hne hr
        rw [hstep] at h
        split at h
        · rename_i hstop
          rw [Option.some.injEq] at h
          subst h
          exact .last hfits hne (by simpa using hstop)
        · rename_i hgoes
          obtain ⟨tail, htail, rfl⟩ := Option.map_eq_some_iff.mp h
          simp only [Bool.or_eq_true, Bool.not_eq_true', not_or, Bool.not_eq_true,
            Bool.not_eq_false] at hgoes
          exact .next hfits hne hgoes.1 hgoes.2 (ih hr' htail)

theorem serveStream_eq_some (hpos : 0 < maxLine) (segments : List Bytes) :
    serveStream maxLine raises early segments = some calls ↔
      Serves maxLine raises 0 segments.flatten calls := by
  constructor
  · intro h
    exact serves_of_serveLoop (r := ⟨[], segments⟩) hpos rfl h
  · intro h
    exact h.serveLoop hpos rfl (by omega)

def countPrefix (m : Bytes) : Bytes := decimal m.length ++ [32]

theorem frame_eq (m : Bytes) : frame m = countPrefix m ++ m := by
  simp [frame, countPrefix]

theorem byteDigit_ofNat (h : d < 10) : byteDigit (UInt8.ofNat (48 + d)) = true := by
  interval_cases d <;> rfl

theorem toNat_ofNat_digit (h : d < 10) : (UInt8.ofNat (48 + d)).toNat - 48 = d := by
  interval_cases d <;> rfl

theorem decimal_digits (hb : b ∈ decimal n) : byteDigit b = true := by
  by_cases hn : n = 0
  · simp only [decimal, hn, if_pos, List.mem_singleton] at hb
    subst hb
    rfl
  · simp only [decimal, hn, if_false, List.mem_map, List.mem_reverse] at hb
    obtain ⟨d, hd, rfl⟩ := hb
    exact byteDigit_ofNat (Nat.digits_lt_base (by decide) hd)

theorem length_decimal (h : n ≠ 0) : (decimal n).length = (Nat.digits 10 n).length := by
  simp [decimal, h]

theorem decimal_ne_nil (n : Nat) : decimal n ≠ [] := by
  by_cases hn : n = 0
  · simp [decimal, hn]
  · simpa [decimal, hn] using Nat.digits_ne_nil_iff_ne_zero.mpr hn

theorem number_concat (digits : Bytes) (d : UInt8) :
    number (digits ++ [d]) = 10 * number digits + (d.toNat - 48) := by
  simp [number]

theorem number_ofDigits (h : ∀ d ∈ ds, d < 10) :
    number (ds.reverse.map (fun d => UInt8.ofNat (48 + d))) = Nat.ofDigits 10 ds := by
  induction ds with
  | nil => rfl
  | cons d ds ih =>
    have hrest := ih (fun e he => h e (List.mem_cons_of_mem _ he))
    rw [List.reverse_cons, List.map_append, List.map_singleton, number_concat, hrest,
      toNat_ofNat_digit (h d List.mem_cons_self), Nat.ofDigits_cons]
    exact Nat.add_comm _ _

theorem number_decimal (n : Nat) : number (decimal n) = n := by
  by_cases hn : n = 0
  · subst hn
    rfl
  · rw [decimal, if_neg hn, number_ofDigits (fun d hd => Nat.digits_lt_base (by decide) hd),
      Nat.ofDigits_digits]

theorem length_decimal_le (h : n ≠ 0) : (decimal n).length ≤ k ↔ n < 10 ^ k := by
  rw [length_decimal h, Nat.digits_length_le_iff (by decide)]

theorem not_byteDigit_of_regexSpace (h : regexSpace w = true) : byteDigit w = false := by
  simp only [regexSpace, Bool.or_eq_true, Bool.and_eq_true, decide_eq_true_eq] at h
  simp only [byteDigit, Bool.and_eq_false_iff, decide_eq_false_iff_not]
  left
  rcases h with h | h
  · intro hc
    exact absurd (UInt8.le_trans hc h.2) (by decide)
  · intro hc
    exact absurd (UInt8.le_trans hc h.2) (by decide)

theorem octetMatch_some (h : octetMatch line = some (stop, n)) :
    2 ≤ stop ∧ stop ≤ line.length := by
  simp only [octetMatch] at h
  split at h
  · cases h
  · rename_i w rest hdrop
    split at h
    · rename_i hc
      simp only [Option.some.injEq, Prod.mk.injEq] at h
      have hlen := congrArg List.length hdrop
      simp only [List.length_drop, List.length_take, List.length_cons] at hlen
      omega
    · cases h

theorem octetMatch_short (rest : Bytes) (hdigits : ∀ b ∈ digits, byteDigit b = true)
    (hhigh : digits.length ≤ 7) (hw : byteDigit w = false) :
    octetMatch (digits ++ w :: rest) =
      if 1 ≤ digits.length ∧ digits.length ≤ 7 ∧ regexSpace w = true
      then some (digits.length + 1, number digits) else none := by
  have htake : (digits ++ w :: rest).take 9 = digits ++ w :: rest.take (8 - digits.length) := by
    rw [List.take_append, List.take_of_length_le (by omega)]
    obtain ⟨k, hk⟩ : ∃ k, 9 - digits.length = k + 1 := ⟨8 - digits.length, by omega⟩
    rw [hk, List.take_succ_cons]
    congr 3
    omega
  have hwhile : ((digits ++ w :: rest).take 9).takeWhile byteDigit = digits := by
    rw [htake, List.takeWhile_append_of_pos hdigits, List.takeWhile_cons_of_neg (by simp [hw]),
      List.append_nil]
  simp only [octetMatch, hwhile]
  rw [htake, List.drop_left]

theorem octetMatch_counted (rest : Bytes) (hdigits : ∀ b ∈ digits, byteDigit b = true)
    (hlow : 1 ≤ digits.length) (hhigh : digits.length ≤ 7) (hw : regexSpace w = true) :
    octetMatch (digits ++ w :: rest) = some (digits.length + 1, number digits) := by
  rw [octetMatch_short rest hdigits hhigh (not_byteDigit_of_regexSpace hw),
    if_pos ⟨hlow, hhigh, hw⟩]

theorem octetMatch_long (hdigits : ∀ b ∈ digits, byteDigit b = true)
    (hlong : 8 ≤ digits.length) : octetMatch (digits ++ rest) = none := by
  have hwhile : 8 ≤ (((digits ++ rest).take 9).takeWhile byteDigit).length := by
    rw [List.take_append, List.takeWhile_append_of_pos
      (fun b hb => hdigits b (List.mem_of_mem_take hb))]
    simp only [List.length_append, List.length_take]
    omega
  simp only [octetMatch]
  split
  · rfl
  · rw [if_neg (by omega)]

theorem lf_notMem_counted (m : Bytes) : lf ∉ countPrefix m := by
  intro h
  rcases List.mem_append.mp h with h | h
  · exact absurd (decimal_digits h) (by decide)
  · exact absurd (List.mem_singleton.mp h) (by decide)

theorem idxOf_frame (m : Bytes) : (frame m).idxOf lf = (countPrefix m).length + m.idxOf lf := by
  rw [frame_eq, List.idxOf_append_of_notMem (lf_notMem_counted m)]

theorem headLine_append_of_notMem (h : lf ∉ p) : headLine (p ++ x) = p ++ headLine x := by
  rw [headLine, List.idxOf_append_of_notMem h, Nat.add_assoc, List.take_length_add_append]
  rfl

theorem afterLine_append_of_notMem (h : lf ∉ p) : afterLine (p ++ x) = afterLine x := by
  rw [afterLine, List.idxOf_append_of_notMem h, Nat.add_assoc, List.drop_length_add_append]
  rfl

theorem lf_mem_headLine (h : lf ∈ c) : lf ∈ headLine c := by
  have hlt := List.idxOf_lt_length_iff.mpr h
  have : (headLine c)[c.idxOf lf]? = some lf := by
    rw [headLine, List.getElem?_take_of_lt (by omega), List.getElem?_idxOf h]
  exact List.mem_of_getElem? this

theorem octetMatch_frame (rest : Bytes) (hne : m ≠ []) (hsmall : m.length < 10 ^ 7) :
    octetMatch (countPrefix m ++ rest) = some ((countPrefix m).length, m.length) := by
  have hlen : m.length ≠ 0 := fun h => hne (List.eq_nil_of_length_eq_zero h)
  have hmatch := octetMatch_counted (w := 32) rest (fun b hb => decimal_digits hb)
    (List.length_pos_of_ne_nil (decimal_ne_nil m.length)) ((length_decimal_le hlen).mpr hsmall) rfl
  rw [number_decimal] at hmatch
  simpa [countPrefix] using hmatch

theorem octetMatch_frame_long (hbig : ¬ m.length < 10 ^ 7) :
    octetMatch (countPrefix m ++ rest) = none := by
  have hlen : m.length ≠ 0 := by omega
  have hlong : 8 ≤ (decimal m.length).length := by
    have := mt (length_decimal_le hlen).mp hbig
    omega
  rw [countPrefix, List.append_assoc]
  exact octetMatch_long (fun b hb => decimal_digits hb) hlong

theorem stripOctetCount_none (h : octetMatch line = none) : stripOctetCount line = (line, none) := by
  simp only [stripOctetCount, h]

theorem stripOctetCount_counted (h : octetMatch (p ++ body) = some (p.length, n)) :
    stripOctetCount (p ++ body) = (body.take n, some n) := by
  by_cases hn : n ≤ body.length
  · simp [stripOctetCount, h, hn]
  · simp [stripOctetCount, h, hn, List.take_of_length_le (show body.length ≤ n by omega)]

theorem goesOn_counted (h : octetMatch (p ++ body) = some (p.length, n)) :
    goesOn (p ++ body) = true := by
  simp [goesOn, stripOctetCount_counted h]

theorem counted_length_lt (hlimit : 3 ≤ limit) (hne : m ≠ []) (hm : m.length ≤ limit) :
    (countPrefix m).length < limit := by
  have hlen : m.length ≠ 0 := fun h => hne (List.eq_nil_of_length_eq_zero h)
  have hpow : ∀ k, k + 4 ≤ 10 ^ (k + 1) := by
    intro k
    induction k with
    | zero => decide
    | succ k ih => rw [Nat.pow_succ]; omega
  have hdigits : (decimal m.length).length ≤ limit - 2 := by
    rw [length_decimal_le hlen]
    have := hpow (limit - 3)
    have hexp : limit - 3 + 1 = limit - 2 := by omega
    rw [hexp] at this
    omega
  simp only [countPrefix, List.length_append, List.length_singleton]
  omega

/-- Where the message reaches to the end of its first line, or the stream ends with it. -/
theorem framed_frame (hne : m ≠ []) (hsmall : m.length < 10 ^ 7) (hlf : lf ∈ m ∨ tail = []) :
    framed (frame m ++ tail) = (m, tail) ∧ goesOn (headLine (frame m ++ tail)) = true := by
  have hcontent : frame m ++ tail = countPrefix m ++ (m ++ tail) := by simp [frame_eq]
  have hhead := headLine_append_of_notMem (x := m ++ tail) (lf_notMem_counted m)
  have hafter := afterLine_append_of_notMem (x := m ++ tail) (lf_notMem_counted m)
  have hmatch := octetMatch_frame (headLine (m ++ tail)) hne hsmall
  have hshort : (headLine (m ++ tail)).length ≤ m.length := by
    rcases hlf with hlf | rfl
    · have hlt := List.idxOf_lt_length_iff.mpr hlf
      rw [headLine, List.idxOf_append_of_mem hlf, List.length_take]
      omega
    · simp [headLine]
  rw [hcontent, hhead]
  refine ⟨?_, goesOn_counted hmatch⟩
  have hstrip := stripOctetCount_counted hmatch
  rw [List.take_of_length_le hshort] at hstrip
  rw [framed, hhead, hstrip]
  simp only [hafter]
  by_cases hless : (headLine (m ++ tail)).length < m.length
  · rw [if_pos hless]
    have htake := congrArg (List.take m.length) (headLine_append_afterLine (m ++ tail))
    have hdrop := congrArg (List.drop m.length) (headLine_append_afterLine (m ++ tail))
    rw [List.take_append, List.take_of_length_le hshort, List.take_left] at htake
    rw [List.drop_append, List.drop_of_length_le hshort, List.drop_left, List.nil_append] at hdrop
    rw [htake, hdrop]
  · rw [if_neg hless]
    have happ := headLine_append_afterLine (m ++ tail)
    obtain ⟨h₁, h₂⟩ := List.append_inj happ (by omega)
    rw [h₁, h₂]

theorem framed_frame_unbroken (hne : m ≠ []) (hsmall : m.length < 10 ^ 7) (hlf : lf ∉ m) :
    framed (frame m ++ tail) = (m, afterLine tail) := by
  have hcontent : frame m ++ tail = countPrefix m ++ (m ++ tail) := by simp [frame_eq]
  have hhead := headLine_append_of_notMem (x := m ++ tail) (lf_notMem_counted m)
  have hafter := afterLine_append_of_notMem (x := m ++ tail) (lf_notMem_counted m)
  have hmatch := octetMatch_frame (headLine (m ++ tail)) hne hsmall
  have hstrip := stripOctetCount_counted hmatch
  rw [headLine_append_of_notMem hlf, List.take_left] at hstrip
  rw [hcontent, framed, hhead, headLine_append_of_notMem hlf, hstrip]
  simp [hafter, afterLine_append_of_notMem hlf]

theorem idxOf_le_append (c x : Bytes) : c.idxOf lf ≤ (c ++ x).idxOf lf := by
  by_cases h : lf ∈ c
  · rw [List.idxOf_append_of_mem h]
  · rw [List.idxOf_append_of_notMem h, List.idxOf_eq_length_iff.mpr h]
    omega

theorem idxOf_append_eq (h : lf ∈ c ∨ x = []) : (c ++ x).idxOf lf = c.idxOf lf := by
  rcases h with h | rfl
  · exact List.idxOf_append_of_mem h
  · rw [List.append_nil]

theorem OctetFrames.serves (h : OctetFrames maxLine raises handled messages)
    (hne : ∀ m ∈ messages, m ≠ []) :
    Serves maxLine raises handled (messages.flatMap frame) messages := by
  induction messages generalizing handled with
  | nil => exact .done
  | cons m ms ih =>
    obtain ⟨hsmall, hfits, hnext, htail⟩ := h
    have hm := hne m List.mem_cons_self
    have hlf : lf ∈ m ∨ ms.flatMap frame = [] := by
      by_cases hms : ms = []
      · exact .inr (by simp [hms])
      · exact .inl (hnext hms).1
    obtain ⟨hframed, hgoes⟩ := framed_frame hm hsmall hlf
    have hidx : (frame m ++ ms.flatMap frame).idxOf lf ≤ maxLine := by
      rw [idxOf_append_eq]
      · exact hfits
      · rcases hlf with hlf | hlf
        · exact .inl (by simp [frame_eq, hlf])
        · exact .inr hlf
    have hcontent : frame m ++ ms.flatMap frame ≠ [] := by simp [frame]
    have hrest := ih htail (fun x hx => hne x (List.mem_cons_of_mem _ hx))
    rw [List.flatMap_cons]
    cases hraises : raises handled m with
    | true =>
      have hms : ms = [] := by
        by_contra hms
        exact absurd (hnext hms).2 (by simp [hraises])
      have hserves : Serves maxLine raises handled (frame m ++ ms.flatMap frame)
          [(framed (frame m ++ ms.flatMap frame)).1] :=
        .last hidx hcontent (.inl (by rw [hframed]; exact hraises))
      rw [hframed] at hserves
      subst hms
      exact hserves
    | false =>
      have hserves : Serves maxLine raises handled (frame m ++ ms.flatMap frame)
          ((framed (frame m ++ ms.flatMap frame)).1 :: ms) :=
        .next hidx hcontent (by rw [hframed]; exact hraises) hgoes (by rw [hframed]; exact hrest)
      rw [hframed] at hserves
      exact hserves

/-- What a turn of the loop consumes: the body, bytes before and after it, and with them an LF
unless nothing is left. -/
theorem framed_split (c : Bytes) :
    ∃ s d, c = s ++ (framed c).1 ++ d ++ (framed c).2 ∧
      (lf ∈ s ++ (framed c).1 ++ d ∨ (framed c).2 = []) ∧
      (s ≠ [] ∨ framed c = (headLine c, afterLine c)) := by
  have hlf : lf ∈ headLine c ∨ afterLine c = [] := by
    by_cases h : lf ∈ c
    · exact .inl (lf_mem_headLine h)
    · exact .inr (afterLine_of_notMem h)
  cases hmatch : octetMatch (headLine c) with
  | none =>
    have hframed : framed c = (headLine c, afterLine c) := by
      rw [framed, stripOctetCount_none hmatch]
    refine ⟨[], [], ?_, ?_, .inr hframed⟩
    · simp [hframed]
    · simpa [hframed] using hlf
  | some p =>
    obtain ⟨stop, n⟩ := p
    obtain ⟨hlow, hstop⟩ := octetMatch_some hmatch
    obtain ⟨s, body, hs, hlen⟩ : ∃ s body, headLine c = s ++ body ∧ s.length = stop :=
      ⟨(headLine c).take stop, (headLine c).drop stop, (List.take_append_drop _ _).symm,
        by simp [hstop]⟩
    have hsne : s ≠ [] := List.ne_nil_of_length_pos (by omega)
    rw [hs, ← hlen] at hmatch
    have hstrip := stripOctetCount_counted hmatch
    rw [← hs] at hstrip
    have hc : c = s ++ body ++ afterLine c := by
      rw [← hs, headLine_append_afterLine]
    by_cases hless : (body.take n).length < n
    · have htake : body.take n = body := by
        rw [List.length_take] at hless
        exact List.take_of_length_le (by omega)
      have hframed : framed c = (body ++ (afterLine c).take (n - body.length),
          (afterLine c).drop (n - body.length)) := by
        rw [htake] at hless hstrip
        rw [framed, hstrip]
        simp [hless]
      refine ⟨s, [], ?_, ?_, .inl hsne⟩
      · rw [hframed]
        simpa [List.append_assoc] using hc
      · rw [hframed]
        rcases hlf with hlf | hlf
        · rw [hs] at hlf
          left
          simp only [List.mem_append] at hlf ⊢
          tauto
        · exact .inr (by simp [hlf])
    · have hframed : framed c = (body.take n, afterLine c) := by
        rw [framed, hstrip]
        exact if_neg hless
      refine ⟨s, body.drop n, ?_, ?_, .inl hsne⟩
      · rw [hframed]
        simpa [List.append_assoc, ← List.append_assoc (body.take n)] using hc
      · rw [hframed]
        rcases hlf with hlf | hlf
        · rw [hs] at hlf
          left
          simpa [List.append_assoc] using hlf
        · exact .inr hlf

/-- What is left of the stream of the frames begins inside `m`, or after it. -/
def Behind (m : Bytes) (ms : List Bytes) (rest : Bytes) : Prop :=
  ∃ lost, lost ≠ [] ∧ m ++ ms.flatMap frame = lost ++ rest

theorem Behind.drop (h : Behind m ms rest) (n : Nat) : Behind m ms (rest.drop n) := by
  obtain ⟨lost, hlost, heq⟩ := h
  exact ⟨lost ++ rest.take n, by simp [hlost], by simp [heq]⟩

theorem behind_of_gap (hm : m ≠ []) (h : (m :: ms).flatMap frame = gap ++ rest)
    (hgap : lf ∈ gap ∨ rest = []) : Behind m ms rest := by
  have hsplit : countPrefix m ++ (m ++ ms.flatMap frame) = gap ++ rest := by
    rw [← h, List.flatMap_cons, frame_eq, List.append_assoc]
  rcases List.append_eq_append_iff.mp hsplit with ⟨lost, hlost, heq⟩ | ⟨more, hmore, heq⟩
  · refine ⟨lost, ?_, heq⟩
    intro hnil
    subst hnil
    rcases hgap with hgap | hgap
    · rw [hlost, List.append_nil] at hgap
      exact lf_notMem_counted m hgap
    · subst hgap
      exact hm (List.append_eq_nil_iff.mp heq).1
  · rcases hgap with hgap | hgap
    · exact absurd (by rw [hmore]; exact List.mem_append_left _ hgap) (lf_notMem_counted m)
    · subst hgap
      exact absurd (List.append_eq_nil_iff.mp (List.append_eq_nil_iff.mp heq.symm).2).1 hm

/-- A stream that is behind does not catch up with a whole message. -/
theorem Behind.framed (h : Behind m (next :: ms) c) (hnext : next ≠ [])
    (hbody : (framed c).1 = m) : Behind next ms (framed c).2 := by
  obtain ⟨lost, hlost, heq⟩ := h
  obtain ⟨s, d, hc, hlf, -⟩ := framed_split c
  rw [hbody] at hc hlf
  have hwhole : m ++ (next :: ms).flatMap frame = (lost ++ s ++ m ++ d) ++ (CentralOps.framed c).2 := by
    rw [heq]
    conv_lhs => rw [hc]
    simp only [List.append_assoc]
  have hpos := List.length_pos_of_ne_nil hlost
  rcases List.append_eq_append_iff.mp hwhole with ⟨gap, hgap, hnexts⟩ | ⟨more, hmore, -⟩
  · refine behind_of_gap hnext hnexts ?_
    by_contra hnone
    rw [not_or] at hnone
    have hcount := congrArg (List.count lf) hgap
    simp only [List.count_append, List.count_eq_zero_of_not_mem hnone.1] at hcount
    have hbefore : lf ∉ lost ++ s := by
      rw [← List.count_eq_zero, List.count_append]
      omega
    have hafter : lf ∉ s ∧ lf ∉ d := by
      constructor
      · rw [← List.count_eq_zero]
        omega
      · rw [← List.count_eq_zero]
        omega
    have hmem : lf ∈ m := by
      rcases hlf with hlf | hlf
      · simp only [List.mem_append] at hlf
        tauto
      · exact absurd hlf hnone.2
    have hidx := congrArg (List.idxOf lf) hgap
    rw [List.append_assoc (lost ++ s), List.idxOf_append_of_notMem hbefore,
      List.idxOf_append_of_mem hmem, List.idxOf_append_of_mem hmem, List.length_append] at hidx
    omega
  · have hlen := congrArg List.length hmore
    simp only [List.length_append] at hlen
    omega

theorem Serves.ne_of_behind (h : Serves maxLine raises handled c calls)
    (hne : ∀ x ∈ m :: ms, x ≠ []) (hbehind : Behind m ms c) : calls ≠ m :: ms := by
  induction h generalizing m ms with
  | done => simp
  | overrun _ _ ih => exact ih hne (hbehind.drop _)
  | @last c _ _ _ _ =>
    intro heq
    obtain ⟨hbody, hms⟩ := List.cons.inj heq
    subst hms
    obtain ⟨lost, hlost, hall⟩ := hbehind
    obtain ⟨s, d, hc, -, -⟩ := framed_split c
    have h₁ := congrArg List.length hall
    have h₂ := congrArg List.length hc
    have hpos := List.length_pos_of_ne_nil hlost
    simp only [List.length_append, List.flatMap_nil, List.length_nil, hbody] at h₁ h₂
    omega
  | @next c _ _ _ _ _ _ hserves ih =>
    intro heq
    obtain ⟨hbody, htail⟩ := List.cons.inj heq
    cases ms with
    | nil =>
      obtain ⟨lost, hlost, hall⟩ := hbehind
      obtain ⟨s, d, hc, -, -⟩ := framed_split c
      have h₁ := congrArg List.length hall
      have h₂ := congrArg List.length hc
      have hpos := List.length_pos_of_ne_nil hlost
      simp only [List.length_append, List.flatMap_nil, List.length_nil, hbody] at h₁ h₂
      omega
    | cons m' ms =>
      have hne' : ∀ x ∈ m' :: ms, x ≠ [] := fun x hx => hne x (List.mem_cons_of_mem _ hx)
      exact ih hne' (hbehind.framed (hne' m' List.mem_cons_self) hbody) htail

theorem headLine_frame_long (hbig : ¬ m.length < 10 ^ 7) (tail : Bytes) :
    framed (frame m ++ tail) = (headLine (frame m ++ tail), afterLine (frame m ++ tail)) := by
  have hcontent : frame m ++ tail = countPrefix m ++ (m ++ tail) := by simp [frame_eq]
  have hhead := headLine_append_of_notMem (x := m ++ tail) (lf_notMem_counted m)
  have hmatch : octetMatch (headLine (frame m ++ tail)) = none := by
    rw [hcontent, hhead]
    exact octetMatch_frame_long hbig
  rw [framed, stripOctetCount_none hmatch]

theorem headLine_frame_ne (m tail : Bytes) : headLine (frame m ++ tail) ≠ m := by
  intro heq
  have hpos : 0 < (countPrefix m).length := by simp [countPrefix]
  have happ := headLine_append_afterLine (frame m ++ tail)
  rw [heq] at happ
  by_cases hlf : lf ∈ m
  · have hidx := congrArg (List.idxOf lf) happ
    rw [List.idxOf_append_of_mem hlf, List.idxOf_append_of_mem (by simp [frame_eq, hlf]),
      idxOf_frame] at hidx
    omega
  · have hnone : lf ∉ frame m ++ tail := by
      intro hmem
      exact hlf (heq ▸ lf_mem_headLine hmem)
    have hlen := congrArg List.length ((headLine_of_notMem hnone).symm.trans heq)
    simp only [frame_eq, List.length_append] at hlen
    omega

theorem Serves.of_overrun (h : Serves maxLine raises handled c calls)
    (hlong : maxLine < c.idxOf lf) : Serves maxLine raises handled (c.drop maxLine) calls := by
  cases h with
  | done => simp at hlong
  | overrun _ hserves => exact hserves
  | last hfits => omega
  | next hfits => omega

theorem Serves.of_fits (h : Serves maxLine raises handled c calls) (hcalls : calls = m :: ms)
    (hfits : c.idxOf lf ≤ maxLine) :
    (framed c).1 = m ∧ (ms = [] ∨
      raises handled m = false ∧ Serves maxLine raises (handled + 1) (framed c).2 ms) := by
  cases h with
  | done => cases hcalls
  | overrun hlong => omega
  | last =>
    obtain ⟨hbody, hms⟩ := List.cons.inj hcalls
    exact ⟨hbody, .inl hms.symm⟩
  | next _ _ hraises _ hserves =>
    obtain ⟨hbody, hms⟩ := List.cons.inj hcalls
    subst hbody hms
    exact ⟨rfl, .inr ⟨hraises, hserves⟩⟩

theorem Serves.octetFrames (hlimit : 3 ≤ maxLine)
    (hsizes : ∀ m ∈ messages, m ≠ [] ∧ m.length ≤ maxLine)
    (h : Serves maxLine raises handled (messages.flatMap frame) messages) :
    OctetFrames maxLine raises handled messages := by
  induction messages generalizing handled with
  | nil => trivial
  | cons m ms ih =>
    have hsizes' : ∀ x ∈ ms, x ≠ [] ∧ x.length ≤ maxLine :=
      fun x hx => hsizes x (List.mem_cons_of_mem _ hx)
    obtain ⟨hm, hmlen⟩ := hsizes m List.mem_cons_self
    have hne : ∀ x ∈ m :: ms, x ≠ [] := fun x hx => (hsizes x hx).1
    have hcounted := counted_length_lt hlimit hm hmlen
    rw [List.flatMap_cons] at h
    have hfits : (frame m ++ ms.flatMap frame).idxOf lf ≤ maxLine := by
      by_contra hlong
      refine (h.of_overrun (by omega)).ne_of_behind hne ?_ rfl
      refine ⟨(m ++ ms.flatMap frame).take (maxLine - (countPrefix m).length), ?_, ?_⟩
      · have hpos := List.length_pos_of_ne_nil hm
        apply List.ne_nil_of_length_pos
        simp only [List.length_take, List.length_append]
        omega
      · rw [frame_eq, List.append_assoc, List.drop_append,
          List.drop_of_length_le (Nat.le_of_lt hcounted), List.nil_append, List.take_append_drop]
    obtain ⟨hbody, hgone⟩ := h.of_fits rfl hfits
    have hsmall : m.length < 10 ^ 7 := by
      by_contra hbig
      rw [headLine_frame_long hbig] at hbody
      exact headLine_frame_ne m _ hbody
    have hidx : (frame m).idxOf lf ≤ maxLine := Nat.le_trans (idxOf_le_append _ _) hfits
    cases ms with
    | nil => exact ⟨hsmall, hidx, fun hms => absurd rfl hms, trivial⟩
    | cons m' ms =>
      obtain ⟨hraises, hserves⟩ := hgone.resolve_left (List.cons_ne_nil _ _)
      have hlf : lf ∈ m := by
        by_contra hlf
        rw [framed_frame_unbroken hm hsmall hlf] at hserves
        refine hserves.ne_of_behind (fun x hx => (hsizes' x hx).1) ?_ rfl
        refine behind_of_gap (hsizes' m' List.mem_cons_self).1
          (headLine_append_afterLine _).symm ?_
        by_cases hmem : lf ∈ (m' :: ms).flatMap frame
        · exact .inl (lf_mem_headLine hmem)
        · exact .inr (afterLine_of_notMem hmem)
      rw [(framed_frame hm hsmall (.inl hlf)).1] at hserves
      exact ⟨hsmall, hidx, fun _ => ⟨hlf, hraises⟩, ih hsizes' hserves⟩

theorem octetMatch_line (hne : m ≠ []) (hstarts : startsCounted m = false) :
    octetMatch (m ++ [lf]) =
      if m.all byteDigit = true ∧ m.length ≤ 7 then some (m.length + 1, number m) else none := by
  have hpos := List.length_pos_of_ne_nil hne
  by_cases hall : m.all byteDigit = true
  · have hdigits : ∀ b ∈ m, byteDigit b = true := List.all_eq_true.mp hall
    by_cases hshort : m.length ≤ 7
    · rw [octetMatch_counted [] hdigits hpos hshort rfl, if_pos ⟨hall, hshort⟩]
    · rw [octetMatch_long hdigits (by omega), if_neg (fun h => hshort h.2)]
  · rw [if_neg (fun h => hall h.1)]
    have hsplit := List.takeWhile_append_dropWhile (p := byteDigit) (l := m)
    have hdigits : ∀ b ∈ m.takeWhile byteDigit, byteDigit b = true :=
      fun b hb => List.mem_takeWhile_imp hb
    cases hmore : m.dropWhile byteDigit with
    | nil =>
      rw [hmore, List.append_nil] at hsplit
      exact absurd (List.all_eq_true.mpr (hsplit ▸ hdigits)) hall
    | cons w more =>
      have hw : byteDigit w = false := by
        have := List.head_dropWhile_not byteDigit (l := m) (by simp [hmore])
        simpa [hmore] using this
      rw [← hsplit, hmore, List.append_assoc, List.cons_append]
      by_cases hlong : 8 ≤ (m.takeWhile byteDigit).length
      · exact octetMatch_long hdigits hlong
      · rw [octetMatch_short _ hdigits (by omega) hw, if_neg]
        rintro ⟨hlow, -, hspace⟩
        have hdigit := List.ne_nil_of_length_pos hlow
        simp [startsCounted, hmore, hspace, hdigit] at hstarts

abbrev lines (messages : List Bytes) : Bytes := messages.flatMap (fun m => m ++ [lf])

@[simp] theorem chomp_line (m : Bytes) : chomp (m ++ [lf]) = m := by
  simp [chomp]

theorem length_chomp_le (body : Bytes) : (chomp body).length ≤ body.length := by
  by_cases h : body.getLast? = some lf
  · simp [chomp, h]
  · simp [chomp, h]

theorem getLast?_lines (hne : messages ≠ []) : (lines messages).getLast? = some lf := by
  obtain ⟨front, m, rfl⟩ := (List.eq_nil_or_concat' messages).resolve_left hne
  simp [lines]

theorem getLast?_of_suffix_lines (h : c <:+ lines messages) (hne : c ≠ []) :
    c.getLast? = some lf := by
  obtain ⟨front, hfront⟩ := h
  have hmessages : messages ≠ [] := by
    intro hnil
    subst hnil
    exact hne (List.append_eq_nil_iff.mp hfront).2
  have hlast := getLast?_lines hmessages
  rwa [← hfront, List.getLast?_append_of_ne_nil _ hne] at hlast

theorem headLine_line (hlf : lf ∉ m) (tail : Bytes) :
    headLine (m ++ [lf] ++ tail) = m ++ [lf] ∧ afterLine (m ++ [lf] ++ tail) = tail := by
  constructor
  · rw [List.append_assoc, headLine_append_of_notMem hlf]
    simp [headLine]
  · rw [List.append_assoc, afterLine_append_of_notMem hlf]
    simp [afterLine]

theorem idxOf_line (hlf : lf ∉ m) (tail : Bytes) : (m ++ [lf] ++ tail).idxOf lf = m.length := by
  rw [List.append_assoc, List.idxOf_append_of_notMem hlf]
  simp

theorem goesOn_line (m : Bytes) : goesOn (m ++ [lf]) = true := by
  simp [goesOn]

theorem length_framed_chomp (hlast : c.getLast? = some lf) :
    (chomp (framed c).1).length + 1 + (framed c).2.length ≤ c.length := by
  obtain ⟨s, d, hc, -, hbody⟩ := framed_split c
  rcases hbody with hs | hbody
  · have hpos := List.length_pos_of_ne_nil hs
    have hchomp := length_chomp_le (framed c).1
    have hlen := congrArg List.length hc
    simp only [List.length_append] at hlen
    omega
  · have hmem : lf ∈ c := List.mem_of_getLast? hlast
    have hlt := List.idxOf_lt_length_iff.mpr hmem
    have hend : (headLine c).getLast? = some lf := by
      rw [headLine, List.getLast?_take, if_neg (by omega), Nat.add_sub_cancel,
        List.getElem?_idxOf hmem]
      rfl
    have hlen := congrArg List.length (headLine_append_afterLine c)
    have hpos := List.length_pos_of_ne_nil (List.ne_nil_of_mem (List.mem_of_getLast? hend))
    simp only [hbody, chomp, hend, if_true, List.length_dropLast, List.length_append] at hlen ⊢
    omega

theorem Serves.ne_of_short (h : Serves maxLine raises handled c calls)
    (hsuffix : c <:+ lines messages) (hshort : c.length < (lines messages).length) :
    calls.map chomp ≠ messages := by
  induction h generalizing messages with
  | done =>
    intro heq
    subst heq
    simp at hshort
  | @overrun c _ _ _ _ ih =>
    refine ih ((List.drop_suffix _ _).trans hsuffix) ?_
    rw [List.length_drop]
    omega
  | @last c _ _ hne _ =>
    intro heq
    have hlen := length_framed_chomp (getLast?_of_suffix_lines hsuffix hne)
    subst heq
    simp only [lines, List.map_cons, List.map_nil, List.flatMap_cons, List.flatMap_nil,
      List.append_nil, List.length_append, List.length_singleton] at hshort
    omega
  | @next c _ calls _ hne _ _ hserves ih =>
    intro heq
    have hlen := length_framed_chomp (getLast?_of_suffix_lines hsuffix hne)
    obtain ⟨s, d, hc, -, -⟩ := framed_split c
    subst heq
    have hlines : lines ((framed c).1 :: calls |>.map chomp)
        = chomp (framed c).1 ++ [lf] ++ lines (calls.map chomp) := rfl
    rw [hlines] at hsuffix hshort
    simp only [List.length_append, List.length_singleton] at hshort
    have hless : (framed c).2.length < (lines (calls.map chomp)).length := by omega
    refine ih (List.suffix_of_suffix_length_le (List.IsSuffix.trans ⟨_, hc.symm⟩ hsuffix)
      (List.suffix_append _ _) (Nat.le_of_lt hless)) hless rfl

theorem LineFrames.serves (h : LineFrames raises handled messages)
    (hsizes : ∀ m ∈ messages, m ≠ [] ∧ m.length ≤ maxLine)
    (hplain : ∀ m ∈ messages, lf ∉ m ∧ startsCounted m = false) :
    Serves maxLine raises handled (lines messages) (messages.map (fun m => m ++ [lf])) := by
  induction messages generalizing handled with
  | nil => exact .done
  | cons m ms ih =>
    obtain ⟨hdigits, hnext, htail⟩ := h
    obtain ⟨hne, hlen⟩ := hsizes m List.mem_cons_self
    obtain ⟨hlf, hstarts⟩ := hplain m List.mem_cons_self
    obtain ⟨hhead, hafter⟩ := headLine_line hlf (lines ms)
    have hframed : framed (m ++ [lf] ++ lines ms) = (m ++ [lf], lines ms) := by
      rw [framed, hhead, hafter, stripOctetCount_none]
      rw [octetMatch_line hne hstarts, if_neg hdigits]
    have hfits : (m ++ [lf] ++ lines ms).idxOf lf ≤ maxLine := by
      rw [idxOf_line hlf]
      exact hlen
    have hgoes : goesOn (headLine (m ++ [lf] ++ lines ms)) = true := by
      rw [hhead]
      exact goesOn_line m
    have hrest := ih htail (fun x hx => hsizes x (List.mem_cons_of_mem _ hx))
      (fun x hx => hplain x (List.mem_cons_of_mem _ hx))
    have hcontent : m ++ [lf] ++ lines ms ≠ [] := by simp
    cases hraises : raises handled (m ++ [lf]) with
    | true =>
      have hms : ms = [] := by
        by_contra hms
        exact absurd (hnext hms) (by simp [hraises])
      have hserves : Serves maxLine raises handled (m ++ [lf] ++ lines ms)
          [(framed (m ++ [lf] ++ lines ms)).1] :=
        .last hfits hcontent (.inl (by rw [hframed]; exact hraises))
      rw [hframed] at hserves
      subst hms
      exact hserves
    | false =>
      have hserves : Serves maxLine raises handled (m ++ [lf] ++ lines ms)
          ((framed (m ++ [lf] ++ lines ms)).1 :: ms.map (fun m => m ++ [lf])) :=
        .next hfits hcontent (by rw [hframed]; exact hraises) hgoes (by rw [hframed]; exact hrest)
      rw [hframed] at hserves
      exact hserves

theorem Serves.lineFrames (h : Serves maxLine raises handled (lines messages) calls)
    (hcalls : calls.map chomp = messages)
    (hsizes : ∀ m ∈ messages, m ≠ [] ∧ m.length ≤ maxLine)
    (hplain : ∀ m ∈ messages, lf ∉ m ∧ startsCounted m = false) :
    LineFrames raises handled messages := by
  induction messages generalizing handled calls with
  | nil => trivial
  | cons m ms ih =>
    obtain ⟨hne, hlen⟩ := hsizes m List.mem_cons_self
    obtain ⟨hlf, hstarts⟩ := hplain m List.mem_cons_self
    obtain ⟨hhead, hafter⟩ := headLine_line hlf (lines ms)
    obtain ⟨body, tail, rfl, hchomp, htail⟩ := List.map_eq_cons_iff.mp hcalls
    have hfits : (m ++ [lf] ++ lines ms).idxOf lf ≤ maxLine := by
      rw [idxOf_line hlf]
      exact hlen
    obtain ⟨hbody, hgone⟩ := Serves.of_fits (c := m ++ [lf] ++ lines ms) h rfl hfits
    have hmatch := octetMatch_line hne hstarts
    by_cases hdigits : m.all byteDigit = true ∧ m.length ≤ 7
    · exfalso
      rw [if_pos hdigits] at hmatch
      have hstrip : stripOctetCount (m ++ [lf]) = ([], some (number m)) := by
        have hwhole : octetMatch (m ++ [lf] ++ []) = some ((m ++ [lf]).length, number m) := by
          simpa using hmatch
        simpa using stripOctetCount_counted hwhole
      have hframed : framed (m ++ [lf] ++ lines ms)
          = ((lines ms).take (number m), (lines ms).drop (number m)) := by
        rw [framed, hhead, hafter, hstrip]
        cases number m with
        | zero => simp
        | succ n => simp
      rw [hframed] at hbody hgone
      have hnonempty : (lines ms).take (number m) ≠ [] := by
        intro hnil
        rw [← hbody, hnil] at hchomp
        exact hne hchomp.symm
      rcases hgone with hgone | ⟨-, hserves⟩
      · subst hgone
        subst htail
        simp at hnonempty
      · have hpos := List.length_pos_of_ne_nil hnonempty
        rw [List.length_take] at hpos
        refine hserves.ne_of_short (List.drop_suffix _ _) ?_ htail
        rw [List.length_drop]
        omega
    · rw [if_neg hdigits] at hmatch
      have hframed : framed (m ++ [lf] ++ lines ms) = (m ++ [lf], lines ms) := by
        rw [framed, hhead, hafter, stripOctetCount_none hmatch]
      rw [hframed] at hbody hgone
      subst hbody
      refine ⟨hdigits, ?_, ?_⟩
      · intro hms
        rcases hgone with hgone | ⟨hraises, -⟩
        · subst hgone
          exact absurd htail.symm hms
        · exact hraises
      · rcases hgone with hgone | ⟨-, hserves⟩
        · subst hgone
          subst htail
          trivial
        · exact ih hserves htail (fun x hx => hsizes x (List.mem_cons_of_mem _ hx))
            (fun x hx => hplain x (List.mem_cons_of_mem _ hx))

theorem octetRoundTrip_iff (hpos : 0 < maxLine) :
    OctetRoundTrip maxLine raises messages ↔
      Serves maxLine raises 0 (messages.flatMap frame) messages := by
  constructor
  · intro h
    have hone : [messages.flatMap frame].flatten = messages.flatMap frame := by simp
    have hserves := (serveStream_eq_some hpos _).mp (h (fun _ => 0) _ hone)
    rwa [hone] at hserves
  · intro h early segments hsegments
    rw [serveStream_eq_some hpos, hsegments]
    exact h

theorem linesRoundTrip_iff (hpos : 0 < maxLine) :
    LinesRoundTrip maxLine raises messages ↔
      ∃ calls, Serves maxLine raises 0 (lines messages) calls ∧ calls.map chomp = messages := by
  constructor
  · intro h
    have hone : [lines messages].flatten = lines messages := by simp
    obtain ⟨calls, hcalls, heq⟩ := Option.map_eq_some_iff.mp (h (fun _ => 0) _ hone)
    have hserves := (serveStream_eq_some hpos _).mp hcalls
    rw [hone] at hserves
    exact ⟨calls, hserves, heq⟩
  · rintro ⟨calls, hserves, heq⟩ early segments hsegments
    rw [Option.map_eq_some_iff]
    exact ⟨calls, (serveStream_eq_some hpos _).mpr (by rw [hsegments]; exact hserves), heq⟩

theorem serveStream_empty (h : segments.flatten = []) :
    serveStream maxLine raises early segments = some [] :=
  serveLoop_empty h

/-- Framed messages come back exactly when each frame can be read whole, and LF-terminated ones
exactly when none is a bare number of one to seven digits. -/
theorem framing_round_trips (maxLine : Nat) (raises : Nat → Bytes → Bool) (messages : List Bytes)
    (hsizes : ∀ m ∈ messages, m ≠ [] ∧ m.length ≤ maxLine) :
    (OctetFrames maxLine raises 0 messages → OctetRoundTrip maxLine raises messages) ∧
    (3 ≤ maxLine → OctetRoundTrip maxLine raises messages → OctetFrames maxLine raises 0 messages) ∧
    ((∀ m ∈ messages, lf ∉ m ∧ startsCounted m = false) →
      (LinesRoundTrip maxLine raises messages ↔ LineFrames raises 0 messages)) := by
  rcases Nat.eq_zero_or_pos maxLine with rfl | hpos
  · cases messages with
    | nil =>
      refine ⟨fun _ _ segments h => serveStream_empty h, fun _ _ => trivial, fun _ => ?_⟩
      refine ⟨fun _ => trivial, fun _ early segments h => ?_⟩
      rw [serveStream_empty h]
      rfl
    | cons m ms =>
      obtain ⟨hne, hlen⟩ := hsizes m List.mem_cons_self
      exact absurd (List.eq_nil_of_length_eq_zero (Nat.le_zero.mp hlen)) hne
  · refine ⟨?_, ?_, ?_⟩
    · intro h
      exact (octetRoundTrip_iff hpos).mpr (h.serves (fun m hm => (hsizes m hm).1))
    · intro hlimit h
      exact ((octetRoundTrip_iff hpos).mp h).octetFrames hlimit hsizes
    · intro hplain
      rw [linesRoundTrip_iff hpos]
      constructor
      · rintro ⟨calls, hserves, heq⟩
        exact hserves.lineFrames heq hsizes hplain
      · intro h
        exact ⟨_, h.serves hsizes hplain, by simp [Function.comp_def]⟩

theorem framing_round_trips_two :
    OctetRoundTrip 65536 (fun _ _ => false) [[97, 10, 98], [99]] ∧
      (OctetRoundTrip 65536 (fun _ _ => false) [[97, 10, 98], [99]] →
        OctetFrames 65536 (fun _ _ => false) 0 [[97, 10, 98], [99]]) ∧
      LinesRoundTrip 65536 (fun _ _ => false) [[97], [49, 98]] := by
  have hframes := framing_round_trips 65536 (fun _ _ => false) [[97, 10, 98], [99]] (by decide)
  have hlines := framing_round_trips 65536 (fun _ _ => false) [[97], [49, 98]] (by decide)
  refine ⟨hframes.1 ⟨by decide, by decide +kernel, fun _ => ⟨by decide, rfl⟩, ?_⟩,
    hframes.2.1 (by decide), (hlines.2.2 (by decide)).mpr ?_⟩
  · exact ⟨by decide, by decide +kernel, fun h => absurd rfl h, trivial⟩
  · exact ⟨by decide, fun _ => rfl, by decide, fun h => absurd rfl h, trivial⟩

/-- Two frames without an LF arrive as one message, and a bare number takes the next line along. -/
theorem framing_loses_messages :
    ¬ OctetRoundTrip 65536 (fun _ _ => false) [[97], [98]] ∧
      ¬ LinesRoundTrip 65536 (fun _ _ => false) [[49, 50, 51], [120]] := by
  constructor
  · intro h
    exact absurd (h (fun _ => 0) [frame [97], frame [98]] (by decide +kernel)) (by decide +kernel)
  · intro h
    exact absurd (h (fun _ => 0) [[49, 50, 51, 10], [120, 10]] (by decide +kernel))
      (by decide +kernel)

end CentralOps
