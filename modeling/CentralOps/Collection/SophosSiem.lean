import CentralOps.Json
import CentralOps.Lib.IsoRoundTrip
import CentralOps.Collection.CursorBoundary

namespace CentralOps
set_option autoImplicit true

open Py

namespace SophosSiem

/-- `_MAX_PAGES_PER_CYCLE`. -/
def maxPagesPerCycle : Nat := 30

/-- `_OFFSET_NO_COLON_RE.sub`. -/
def offsetNoColon (s : Text) : Text :=
  match s.drop (s.length - 5) with
  | [sign, a, b, c, d] =>
    if (sign = ch '+' ∨ sign = ch '-') ∧ [a, b, c, d].all isDecimal then
      s.take (s.length - 2) ++ text ":" ++ s.drop (s.length - 2)
    else s
  | _ => s

/-- `_normalize_ts`: a time that cannot be read comes back as it is, and one that leaves the years
1 to 9999 in UTC raises. -/
def normalizeTs (value : Text) : Except PyError Text :=
  if value = [] then .ok value
  else
    let raw := strip isSpace value
    let candidate :=
      if raw.getLast? = some (ch 'Z') then raw.dropLast ++ text "+00:00" else raw
    match fromIsoFormat (offsetNoColon candidate) with
    | none => .ok value
    | some dt =>
      match dt.utcWall with
      | none => .error .overflowError
      | some wall => .ok (isoSeconds wall)

/-- Whether a text has the shape of `_CANON_TS_RE`, where `d` stands for a digit. -/
def shaped (s : Text) : Bool :=
  let shape := text "dddd-dd-ddTdd:dd:ddZ"
  decide (s.length = shape.length) &&
    (shape.zip s).all (fun p => if p.1 = ch 'd' then isDecimal p.2 else decide (p.1 = p.2))

/-- `_CANON_TS_RE.match`, whose `$` also stands before a last line feed. -/
def canonTs (s : Text) : Bool :=
  shaped s || (decide (s.getLast? = some (ch '\n')) && shaped s.dropLast)

/-- `_safe_cursor_ts`. -/
def safeCursorTs (value fallback : Text) : Except PyError Text := do
  let canon ← normalizeTs value
  if canonTs canon ∧ (fromIsoFormat (canon.dropLast ++ text "+00:00")).isSome then .ok canon
  else .ok fallback

/-- `_default_lookback_iso` at an instant. -/
def defaultLookbackIso (now : Nat) : Text := isoSeconds (now - 12 * 3600 * 1000000)

/-- The instant of 1970. -/
def epoch : Nat := (toOrdinal 1970 1 1 - 1) * dayMicros

/-- `_iso_to_epoch_seconds`, or nothing where it raises. -/
def isoToEpochSeconds (value : Text) : Option Int :=
  let value := if value.getLast? = some (ch 'Z') then value.dropLast ++ text "+00:00" else value
  (fromIsoFormat value).map (fun dt => ((dt.wall : Int) - dt.offset.getD 0 - epoch).tdiv 1000000)

def asText : Json → Option Text
  | .str s => some (text s)
  | _ => none

def extractItems (payload : Obj) : List Json :=
  match ["items", "events", "data"].findSome? (fun key =>
    match payload.getN key with
    | .list xs => some xs
    | _ => none) with
  | some xs => xs
  | none => []

def extractCursor (payload : Obj) : Option Text × Bool :=
  let cursor := ["next_cursor", "nextCursor", "cursor"].findSome? (fun key =>
    (asText (payload.getN key)).filter (fun t => decide (t ≠ [])))
  let hasMore := payload.getN "has_more"
  let hasMore := if hasMore = .null then payload.getN "hasMore" else hasMore
  (cursor, hasMore.truthy && cursor.isSome)

/-- `extract_message_id`. -/
def extractMessageId (rt : Runtime) (event : Obj) : Text :=
  let id := event.getN "id"
  text (rt.str (if id.truthy then id else .str ""))

/-- `raw_ts`, where it is a text. -/
def rawTs (event : Obj) (latestTs : Text) : Option Text :=
  if (event.getN "created_at").truthy then asText (event.getN "created_at")
  else if (event.getN "when").truthy then asText (event.getN "when")
  else some latestTs

/-- `ts`. -/
def eventTs (event : Obj) (latestTs : Text) : Except PyError Text :=
  match rawTs event latestTs with
  | some raw => safeCursorTs raw latestTs
  | none => .ok latestTs

/-- The time that is given to the memory. -/
def stampOf (event : Obj) (latestTs : Text) : When :=
  match rawTs event latestTs with
  | some raw => .str raw
  | none => .none

structure Cursor where
  fromTs : Option Text := none
  backfillFromTs : Option Text := none
  pageCursor : Option Text := none
  memory : Option BoundaryMemory := none

/-- `a or b`. -/
def orText (a : Option Text) (b : Text) : Text :=
  match a with
  | none => b
  | some t => if t = [] then b else t

theorem orText_some {t : Text} (h : t ≠ []) (b : Text) : orText (some t) b = t := if_neg h

/-- What the loop over the events of a page has made of them. -/
structure Reading where
  boundary : BoundaryKeys
  latestTs : Text
  emitted : List Obj := []

/-- A running `collect`. -/
structure State where
  fromTs : Text
  pageCursor : Option Text
  latestTs : Text
  boundary : BoundaryKeys
  pageCount : Nat
  cursor : Cursor
  boundedPerCycle : Bool

namespace State

/-- The start of `collect`. -/
def start (cursor : Cursor) (boundedPerCycle : Bool) (fallback : Text) : Except PyError State := do
  let fromTs ← safeCursorTs (orText cursor.fromTs (orText cursor.backfillFromTs fallback)) fallback
  .ok ⟨fromTs, cursor.pageCursor, fromTs, .load cursor.memory (some fromTs), 0, cursor,
    boundedPerCycle⟩

/-- Whether the next request carries the page cursor; otherwise it carries `from_date`. -/
def paging (s : State) : Bool := decide (s.pageCursor.getD [] ≠ [])

def resume (s : State) : Cursor := ⟨some s.fromTs, none, s.pageCursor, s.boundary.carry⟩

/-- The last write of `collect`. -/
def finish (s : State) : Cursor := ⟨some s.latestTs, none, none, s.boundary.dump s.latestTs⟩

end State

section Collect
variable (rt : Runtime)

/-- The loop over the events. -/
def Reading.next (r : Reading) (event : Obj) : Except PyError Reading := do
  let ts ← eventTs event r.latestTs
  let latestTs := if r.latestTs < ts then ts else r.latestTs
  match r.boundary.seen (stampOf event r.latestTs) (extractMessageId rt event) with
  | (true, b) => .ok ⟨b, latestTs, r.emitted⟩
  | (false, b) => .ok ⟨b, latestTs, r.emitted ++ [event]⟩

def readItems : List Json → Reading → Except PyError Reading
  | [], r => .ok r
  | .obj event :: items, r => do readItems items (← r.next rt event)
  | _ :: _, _ => .error .attributeError

/-- What a turn of the loop of `collect` leads to: the end of the cycle with its cursor, or the
next turn. -/
inductive Outcome where
  | returned (cursor : Cursor)
  | running (s : State)

def State.page (s : State) (payload : Obj) : Except PyError (Outcome × List Obj) := do
  let r ← readItems rt (extractItems payload) ⟨s.boundary, s.latestTs, []⟩
  let (pageCursor, hasMore) := extractCursor payload
  let s := { s with
    pageCursor := pageCursor, latestTs := r.latestTs, boundary := r.boundary
    pageCount := s.pageCount + 1 }
  if s.boundedPerCycle && hasMore && decide (maxPagesPerCycle ≤ s.pageCount) then
    .ok (.returned s.resume, r.emitted)
  else if !hasMore then .ok (.returned s.finish, r.emitted)
  else .ok (.running { s with cursor := s.resume }, r.emitted)

def State.stale (s : State) : Cursor := { s with pageCursor := none }.finish

end Collect

/-- The feed: the events of a pagination from a time on. An `id` names one event. -/
structure Feed (rt : Runtime) where
  returned : Int → List Obj
  keyed : ∀ d d', ∀ e ∈ returned d, ∀ e' ∈ returned d', extractMessageId rt e ≠ [] →
    extractMessageId rt e = extractMessageId rt e' → e = e'

/-- The collector and its feed: the stored cursor, the running cycle, the pages of the pagination
that it has not been given, what the running cycle has read, and all that has been yielded. -/
structure World where
  cursor : Cursor
  running : Option State := none
  pages : List (List Obj) := []
  read : List Obj := []
  yielded : List Obj := []

def World.close (x : World) (cursor : Cursor) : World := { x with cursor := cursor, running := none }

def World.turn (x : World) (page : List Obj) (rest : List (List Obj)) :
    Outcome × List Obj → World
  | (.returned cursor, emitted) =>
    { x with
      cursor := cursor, running := none, pages := rest
      read := x.read ++ page, yielded := x.yielded ++ emitted }
  | (.running s, emitted) =>
    { x with
      running := some s, pages := rest, read := x.read ++ page, yielded := x.yielded ++ emitted }

/-- A cycle begins, is given a page, or gets 400 to a page cursor. -/
inductive Step (rt : Runtime) (feed : Feed rt) (mayStale : World → State → Prop) :
    World → World → Prop
  | start (boundedPerCycle : Bool) (now : Nat) (pages : List (List Obj)) :
      now < wallLimit → x.running = none →
      State.start x.cursor boundedPerCycle (defaultLookbackIso now) = .ok s →
      (s.paging = true → pages = x.pages) →
      (s.paging = false → pages ≠ [] ∧ ∃ d, isoToEpochSeconds s.fromTs = some d ∧
        pages.flatten.Perm (feed.returned d)) →
      Step rt feed mayStale x { x with running := some s, pages := pages, read := [] }
  | page (payload : Obj) :
      x.running = some s → x.pages = page :: rest →
      extractItems payload = page.map .obj → (extractCursor payload).2 = !rest.isEmpty →
      s.page rt payload = .ok outcome →
      Step rt feed mayStale x (x.turn page rest outcome)
  | stale :
      x.running = some s → s.paging = true → mayStale x s →
      Step rt feed mayStale x (x.close s.stale)

section Times

theorem offsetNoColon_utc (s : Text) : offsetNoColon (s ++ text "+00:00") = s ++ text "+00:00" := by
  have hdrop : (s ++ text "+00:00").drop ((s ++ text "+00:00").length - 5) =
      [ch '0', ch '0', ch ':', ch '0', ch '0'] := by
    have hsplit : s ++ text "+00:00" = (s ++ [ch '+']) ++ [ch '0', ch '0', ch ':', ch '0', ch '0'] := by
      rw [List.append_assoc]
      rfl
    have hlen : (s ++ text "+00:00").length - 5 = (s ++ [ch '+']).length := by
      rw [hsplit, List.length_append]
      rfl
    rw [hlen, hsplit, List.drop_left]
  have hsign : ¬ (ch '0' = ch '+' ∨ ch '0' = ch '-') := by decide
  rw [offsetNoColon, hdrop]
  simp only [hsign, false_and, if_false]

theorem normalizeTs_isoSeconds (wall : Nat) (h : wall < wallLimit) :
    normalizeTs (isoSeconds wall) = .ok (isoSeconds wall) := by
  obtain ⟨hstrip, hlast⟩ := isoSeconds_trimmed wall h
  obtain ⟨dt, hread, hutc⟩ := fromIsoFormat_isoSeconds wall h
  have hsome : isoSeconds wall ≠ [] := by
    intro hnil
    rw [hnil] at hlast
    cases hlast
  simp only [normalizeTs, hsome, if_false, hstrip, hlast, if_true, offsetNoColon_utc, hread, hutc,
    isoSeconds_floor]

theorem canonTs_isoSeconds (wall : Nat) (h : wall < wallLimit) : canonTs (isoSeconds wall) = true := by
  obtain ⟨year, month, day, hour, minute, second, htext, hdate, htime, -⟩ :=
    isoSeconds_stamped wall h
  simp only [DateTime.validDate, Bool.and_eq_true, decide_eq_true_eq] at hdate
  simp only [DateTime.validTime, Bool.and_eq_true, decide_eq_true_eq] at htime
  have hmost := daysInMonth_le year month
  have hall : ∀ k : Fin 10, isDecimal (digit k) = true := by decide
  have hdigit : ∀ k, k < 10 → isDecimal (digit k) = true := fun k hk => hall ⟨k, hk⟩
  have hdash : ch '-' ≠ ch 'd' := by decide
  have htime' : ch 'T' ≠ ch 'd' := by decide
  have hcolon : ch ':' ≠ ch 'd' := by decide
  have hzone : ch 'Z' ≠ ch 'd' := by decide
  have hshape : text "dddd-dd-ddTdd:dd:ddZ" = [ch 'd', ch 'd', ch 'd', ch 'd', ch '-', ch 'd', ch 'd',
    ch '-', ch 'd', ch 'd', ch 'T', ch 'd', ch 'd', ch ':', ch 'd', ch 'd', ch ':', ch 'd', ch 'd',
    ch 'Z'] := rfl
  have hend : text "Z" = [ch 'Z'] := rfl
  rw [canonTs, Bool.or_eq_true]
  left
  rw [htext, shaped, hshape, hend]
  simp only [stampChars, fourChars, twoChars, List.zip_cons_cons, List.zip_nil_left, List.all_cons,
    List.all_nil, if_true, hdash, htime', hcolon, hzone, if_false, decide_true, Bool.and_true,
    List.length_cons, List.length_nil]
  simp (disch := omega) only [hdigit, Bool.and_self]

theorem normalizeTs_cases {value canon : Text} (h : normalizeTs value = .ok canon) :
    canon = value ∨ ∃ wall < wallLimit, canon = isoSeconds wall := by
  rw [normalizeTs] at h
  by_cases hnone : value = []
  · rw [if_pos hnone] at h
    exact .inl (Except.ok.inj h).symm
  · rw [if_neg hnone] at h
    dsimp only at h
    generalize fromIsoFormat _ = read at h
    cases read with
    | none => exact .inl (Except.ok.inj h).symm
    | some dt =>
      dsimp only at h
      cases hutc : dt.utcWall with
      | none =>
        rw [hutc] at h
        cases h
      | some wall =>
        rw [hutc] at h
        exact .inr ⟨wall, utcWall_lt hutc, (Except.ok.inj h).symm⟩

def Stable (t : Text) : Prop := ∀ fallback, safeCursorTs t fallback = .ok t

theorem stable_isoSeconds (wall : Nat) (h : wall < wallLimit) : Stable (isoSeconds wall) := by
  intro fallback
  obtain ⟨dt, hread, -⟩ := fromIsoFormat_isoSeconds wall h
  rw [safeCursorTs, normalizeTs_isoSeconds wall h]
  simp only [bind, Except.bind, canonTs_isoSeconds wall h, hread, Option.isSome_some, and_self,
    if_true]

/-- The guard gives the fallback, or what the value means to it. -/
theorem safeCursorTs_cases {value fallback t : Text} (h : safeCursorTs value fallback = .ok t) :
    t = fallback ∨ (∀ other, safeCursorTs value other = .ok t) ∧ Stable t := by
  rw [safeCursorTs] at h
  cases hcanon : normalizeTs value with
  | error e =>
    rw [hcanon] at h
    cases h
  | ok canon =>
    rw [hcanon] at h
    by_cases hkeep : canonTs canon = true ∧
        (fromIsoFormat (canon.dropLast ++ text "+00:00")).isSome = true
    · right
      simp only [bind, Except.bind, hkeep, and_self, if_true, Except.ok.injEq] at h
      subst h
      have hall : ∀ other, safeCursorTs value other = .ok canon := by
        intro other
        rw [safeCursorTs, hcanon]
        simp only [bind, Except.bind, hkeep, and_self, if_true]
      refine ⟨hall, ?_⟩
      obtain hsame | ⟨wall, hwall, hsame⟩ := normalizeTs_cases hcanon
      · rw [hsame] at hall ⊢
        exact hall
      · rw [hsame]
        exact stable_isoSeconds wall hwall
    · left
      simp only [bind, Except.bind, hkeep, if_false, Except.ok.injEq] at h
      exact h.symm

end Times

def statedTs (event : Obj) : Option Text :=
  if (event.getN "created_at").truthy then asText (event.getN "created_at")
  else if (event.getN "when").truthy then asText (event.getN "when")
  else none

def MovesTo (event : Obj) (t : Text) : Prop :=
  ∃ raw, statedTs event = some raw ∧ ∀ fallback, safeCursorTs raw fallback = .ok t

section Reads
variable {rt : Runtime}

theorem rawTs_cases {event : Obj} {latestTs raw : Text} (h : rawTs event latestTs = some raw) :
    statedTs event = some raw ∨ raw = latestTs := by
  rw [rawTs] at h
  rw [statedTs]
  by_cases hcreated : (event.getN "created_at").truthy = true
  · rw [if_pos hcreated] at h ⊢
    exact .inl h
  · rw [if_neg hcreated] at h ⊢
    by_cases hwhen : (event.getN "when").truthy = true
    · rw [if_pos hwhen] at h ⊢
      exact .inl h
    · rw [if_neg hwhen] at h
      exact .inr (Option.some.inj h).symm

structure Reads (rt : Runtime) (r r' : Reading) (events : List Obj) : Prop where
  previous : r'.boundary.previous = r.boundary.previous
  recent : ∀ seen ∈ r'.boundary.recent, seen ∈ r.boundary.recent ∨
    ∃ e ∈ events, extractMessageId rt e = (ofLex seen).2
  kept : r.emitted ⊆ r'.emitted
  emitted : ∀ e ∈ r'.emitted, e ∈ r.emitted ∨ e ∈ events
  all : ∀ e ∈ events, e ∈ r'.emitted ∨
    extractMessageId rt e ≠ [] ∧ extractMessageId rt e ∈ r.boundary.previous
  stable : Stable r.latestTs → Stable r'.latestTs
  latest : Stable r.latestTs → r'.latestTs = r.latestTs ∨
    r.latestTs < r'.latestTs ∧ ∃ e ∈ events, MovesTo e r'.latestTs

theorem Reads.refl (r : Reading) : Reads rt r r [] where
  previous := rfl
  recent _ h := .inl h
  kept := List.Subset.refl _
  emitted _ h := .inl h
  all _ h := absurd h List.not_mem_nil
  stable h := h
  latest _ := .inl rfl

theorem Reads.trans {r r' r'' : Reading} {events more : List Obj} (h : Reads rt r r' events)
    (h' : Reads rt r' r'' more) : Reads rt r r'' (events ++ more) where
  previous := h'.previous.trans h.previous
  recent seen hseen := by
    obtain hin | ⟨e, he, hkey⟩ := h'.recent seen hseen
    · obtain hin | ⟨e, he, hkey⟩ := h.recent seen hin
      · exact .inl hin
      · exact .inr ⟨e, List.mem_append_left more he, hkey⟩
    · exact .inr ⟨e, List.mem_append_right events he, hkey⟩
  kept := List.Subset.trans h.kept h'.kept
  emitted e he := by
    obtain hin | hin := h'.emitted e he
    · obtain hin | hin := h.emitted e hin
      · exact .inl hin
      · exact .inr (List.mem_append_left more hin)
    · exact .inr (List.mem_append_right events hin)
  all e he := by
    obtain he | he := List.mem_append.1 he
    · obtain hin | hskipped := h.all e he
      · exact .inl (h'.kept hin)
      · exact .inr hskipped
    · obtain hin | hskipped := h'.all e he
      · exact .inl hin
      · rw [h.previous] at hskipped
        exact .inr hskipped
  stable hstable := h'.stable (h.stable hstable)
  latest hstable := by
    obtain hsame | ⟨hlt, e, he, hmoves⟩ := h'.latest (h.stable hstable)
    · rw [hsame]
      obtain hsame | ⟨hlt, e, he, hmoves⟩ := h.latest hstable
      · exact .inl hsame
      · exact .inr ⟨hlt, e, List.mem_append_left more he, hmoves⟩
    · right
      refine ⟨?_, e, List.mem_append_right events he, hmoves⟩
      obtain hsame | ⟨hbefore, -⟩ := h.latest hstable
      · exact hsame ▸ hlt
      · exact hbefore.trans hlt

theorem latest_next {event : Obj} {latestTs ts : Text} (hstable : Stable latestTs)
    (h : eventTs event latestTs = .ok ts) :
    ts = latestTs ∨ Stable ts ∧ MovesTo event ts := by
  rw [eventTs] at h
  cases hraw : rawTs event latestTs with
  | none =>
    rw [hraw] at h
    exact .inl (Except.ok.inj h).symm
  | some raw =>
    rw [hraw] at h
    dsimp only at h
    obtain hstated | hsame := rawTs_cases hraw
    · obtain hsame | ⟨hall, hts⟩ := safeCursorTs_cases h
      · exact .inl hsame
      · exact .inr ⟨hts, raw, hstated, hall⟩
    · rw [hsame, hstable latestTs] at h
      exact .inl (Except.ok.inj h).symm

theorem next_reads {r r' : Reading} {event : Obj} (h : r.next rt event = .ok r') :
    Reads rt r r' [event] := by
  rw [Reading.next] at h
  generalize stampOf event r.latestTs = stamp at h
  cases hts : eventTs event r.latestTs with
  | error e =>
    rw [hts] at h
    cases h
  | ok ts =>
    rw [hts] at h
    simp only [bind, Except.bind] at h
    have hlatest : ∀ b emitted, Reading.mk b (if r.latestTs < ts then ts else r.latestTs) emitted = r' →
        (Stable r.latestTs → Stable r'.latestTs) ∧ (Stable r.latestTs → r'.latestTs = r.latestTs ∨
          r.latestTs < r'.latestTs ∧ ∃ e ∈ [event], MovesTo e r'.latestTs) := by
      intro b emitted hr
      subst hr
      by_cases hlt : r.latestTs < ts
      · rw [if_pos hlt]
        constructor
        · intro hstable
          obtain hsame | ⟨hts', -⟩ := latest_next hstable hts
          · exact hsame ▸ hstable
          · exact hts'
        · intro hstable
          obtain hsame | ⟨-, hmoves⟩ := latest_next hstable hts
          · exact .inl hsame
          · exact .inr ⟨hlt, event, List.mem_singleton_self event, hmoves⟩
      · rw [if_neg hlt]
        exact ⟨id, fun _ => .inl rfl⟩
    have hrecent : ∀ seen ∈ (r.boundary.observe stamp (extractMessageId rt event)).recent,
        seen ∈ r.boundary.recent ∨ ∃ e ∈ [event], extractMessageId rt e = (ofLex seen).2 := by
      intro seen hseen
      obtain hin | hnew := mem_remember hseen
      · exact .inl hin
      · exact .inr ⟨event, List.mem_singleton_self event,
          (mem_placedAt (e := ⟨stamp, extractMessageId rt event⟩) hnew).2⟩
    by_cases hseen : extractMessageId rt event ≠ [] ∧
        extractMessageId rt event ∈ r.boundary.previous
    · have hstep : r.boundary.seen stamp (extractMessageId rt event) =
          (true, { r.boundary.observe stamp (extractMessageId rt event) with
            skipped := r.boundary.skipped + 1 }) := by
        simp only [BoundaryKeys.seen, BoundaryKeys.observe, hseen, and_self, if_true, ne_eq,
          not_false_eq_true]
      rw [hstep] at h
      have hr := Except.ok.inj h
      obtain ⟨hstable, hmoves⟩ := hlatest _ _ hr
      subst hr
      exact ⟨rfl, hrecent, List.Subset.refl _, fun e he => .inl he,
        fun e he => .inr (by rw [List.mem_singleton.1 he]; exact hseen), hstable, hmoves⟩
    · have hstep : r.boundary.seen stamp (extractMessageId rt event) =
          (false, r.boundary.observe stamp (extractMessageId rt event)) := by
        simp only [BoundaryKeys.seen, BoundaryKeys.observe, hseen, if_false]
      rw [hstep] at h
      have hr := Except.ok.inj h
      obtain ⟨hstable, hmoves⟩ := hlatest _ _ hr
      subst hr
      exact ⟨rfl, hrecent, List.subset_append_left _ _, fun e he => List.mem_append.1 he,
        fun e he => .inl (List.mem_append_right _ he), hstable, hmoves⟩

theorem readItems_reads {r r' : Reading} {events : List Obj}
    (h : readItems rt (events.map .obj) r = .ok r') : Reads rt r r' events := by
  induction events generalizing r with
  | nil => exact Except.ok.inj h ▸ Reads.refl r
  | cons event events ih =>
    rw [List.map_cons, readItems] at h
    cases hnext : r.next rt event with
    | error e =>
      rw [hnext] at h
      cases h
    | ok between =>
      rw [hnext] at h
      exact (next_reads hnext).trans (ih h)

end Reads

section Pages
variable {rt : Runtime}

/-- What a page makes of the state. -/
def State.after (s : State) (pageCursor : Option Text) (r : Reading) : State :=
  { s with
    pageCursor := pageCursor, latestTs := r.latestTs, boundary := r.boundary
    pageCount := s.pageCount + 1 }

/-- What a turn with a page can lead to. -/
theorem page_cases {s : State} {payload : Obj} {page : List Obj} {outcome : Outcome}
    {emitted : List Obj} (hitems : extractItems payload = page.map .obj)
    (h : s.page rt payload = .ok (outcome, emitted)) :
    ∃ r, Reads rt ⟨s.boundary, s.latestTs, []⟩ r page ∧ emitted = r.emitted ∧
      ((extractCursor payload).2 = true ∧
          outcome = .returned (s.after (extractCursor payload).1 r).resume ∨
        (extractCursor payload).2 = true ∧ outcome =
          .running { s.after (extractCursor payload).1 r with
            cursor := (s.after (extractCursor payload).1 r).resume } ∨
        (extractCursor payload).2 = false ∧
          outcome = .returned (s.after (extractCursor payload).1 r).finish) := by
  rw [State.page, hitems] at h
  cases hread : readItems rt (page.map .obj) ⟨s.boundary, s.latestTs, []⟩ with
  | error e =>
    rw [hread] at h
    cases h
  | ok r =>
    rw [hread] at h
    simp only [bind, Except.bind] at h
    refine ⟨r, readItems_reads hread, ?_⟩
    cases hmore : (extractCursor payload).2 with
    | false =>
      simp only [hmore, Bool.and_false, Bool.false_and, Bool.false_eq_true, if_false, Bool.not_false,
        if_true] at h
      obtain ⟨rfl, rfl⟩ := Prod.mk.inj (Except.ok.inj h)
      exact ⟨rfl, .inr (.inr ⟨rfl, rfl⟩)⟩
    | true =>
      simp only [hmore, Bool.and_true, Bool.not_true, Bool.false_eq_true, if_false] at h
      split at h
      · obtain ⟨rfl, rfl⟩ := Prod.mk.inj (Except.ok.inj h)
        exact ⟨rfl, .inl ⟨rfl, rfl⟩⟩
      · obtain ⟨rfl, rfl⟩ := Prod.mk.inj (Except.ok.inj h)
        exact ⟨rfl, .inr (.inl ⟨rfl, rfl⟩)⟩

theorem stable_ne_nil {t : Text} (h : Stable t) : t ≠ [] := by
  intro hnil
  have hkept := h (text "-")
  rw [hnil] at hkept
  cases hkept

theorem start_cases {cursor : Cursor} {bounded : Bool} {fallback : Text} {s : State}
    (hfallback : Stable fallback) (h : State.start cursor bounded fallback = .ok s) :
    Stable s.fromTs ∧ s.latestTs = s.fromTs ∧ s.pageCursor = cursor.pageCursor ∧
      s.boundary = .load cursor.memory (some s.fromTs) ∧
      ∀ w, cursor.fromTs = some w → Stable w → s.fromTs = w := by
  rw [State.start] at h
  cases hfrom : safeCursorTs (orText cursor.fromTs (orText cursor.backfillFromTs fallback))
      fallback with
  | error e =>
    rw [hfrom] at h
    cases h
  | ok fromTs =>
    rw [hfrom] at h
    have hs := Except.ok.inj h
    subst hs
    refine ⟨?_, rfl, rfl, rfl, ?_⟩
    · obtain hsame | ⟨-, hstable⟩ := safeCursorTs_cases hfrom
      · exact hsame ▸ hfallback
      · exact hstable
    · intro w hw hstable
      rw [hw, orText_some (stable_ne_nil hstable), hstable fallback] at hfrom
      exact (Except.ok.inj hfrom).symm

theorem mem_carry {b : BoundaryKeys} {m : BoundaryMemory} (h : b.carry = some m) {key : Text}
    (hkey : key ∈ m.keys) : key ∈ b.previous := by
  rw [BoundaryKeys.carry] at h
  split at h
  · cases h
  · split at h
    · cases h
    · cases h
      exact (List.mem_insertionSort _).1 hkey

end Pages

section Window
variable {rt : Runtime} (feed : Feed rt)

def Known (rt : Runtime) (yielded : List Obj) (key : Text) : Prop :=
  ∃ e ∈ yielded, extractMessageId rt e = key

/-- Of the pagination from a window on, every event has been yielded or lies on a page that has not
been given. -/
def Pending (feed : Feed rt) (pages : List (List Obj)) (yielded : List Obj) (window : Text) : Prop :=
  ∃ d, isoToEpochSeconds window = some d ∧ pages.flatten ⊆ feed.returned d ∧
    ∀ e ∈ feed.returned d, e ∈ yielded ∨ e ∈ pages.flatten

structure Running (feed : Feed rt) (x : World) (s : State) : Prop where
  window : ∀ w, x.cursor.fromTs = some w → Stable w → s.fromTs = w
  pending : Pending feed x.pages x.yielded s.fromTs
  previous : ∀ key ∈ s.boundary.previous, Known rt x.yielded key
  recent : ∀ seen ∈ s.boundary.recent, Known rt x.yielded (ofLex seen).2
  stableFrom : Stable s.fromTs
  stableLatest : Stable s.latestTs
  latest : s.latestTs = s.fromTs ∨
    s.fromTs < s.latestTs ∧ ∃ e ∈ x.read, MovesTo e s.latestTs

structure Inv (feed : Feed rt) (x : World) : Prop where
  fed : ∀ e ∈ x.yielded, ∃ d, e ∈ feed.returned d
  known : ∀ m, x.cursor.memory = some m → ∀ key ∈ m.keys, Known rt x.yielded key
  stored : x.running = none → x.cursor.pageCursor.getD [] ≠ [] →
    ∃ w, x.cursor.fromTs = some w ∧ Stable w ∧ Pending feed x.pages x.yielded w
  running : ∀ s, x.running = some s → Running feed x s

/-- Before the first cycle: no page cursor, and a memory of what has been yielded. -/
structure Fresh (feed : Feed rt) (x : World) : Prop where
  idle : x.running = none
  noPage : x.cursor.pageCursor.getD [] = []
  fed : ∀ e ∈ x.yielded, ∃ d, e ∈ feed.returned d
  known : ∀ m, x.cursor.memory = some m → ∀ key ∈ m.keys, Known rt x.yielded key

/-- An event whose `created_at` is not earlier than a time. -/
def NotBefore (event : Obj) (w : Text) : Prop :=
  ∃ created t bound, asText (event.getN "created_at") = some created ∧
    instant (.str created) = some t ∧ instant (.str w) = some bound ∧ bound ≤ t

/-- When a 400 loses nothing: an event of the pages that are left, unless it has been yielded, is
not earlier than any time past the window that the cycle has read. -/
def Settled (x : World) (s : State) : Prop :=
  ∀ u ∈ x.pages.flatten, u ∉ x.yielded → ∀ r ∈ x.read, ∀ t, MovesTo r t → s.fromTs < t →
    NotBefore u t

variable {feed} {x y : World}

theorem Known.mono {yielded more : List Obj} {key : Text} (h : Known rt yielded key) :
    Known rt (yielded ++ more) key := by
  obtain ⟨e, he, hkey⟩ := h
  exact ⟨e, List.mem_append_left more he, hkey⟩

theorem Fresh.inv (h : Fresh feed x) : Inv feed x where
  fed := h.fed
  known := h.known
  stored _ hpage := absurd h.noPage hpage
  running s hs := by
    rw [h.idle] at hs
    cases hs

theorem Inv.start (h : Inv feed x) {boundedPerCycle : Bool} {now : Nat} {pages : List (List Obj)}
    {s : State} (hnow : now < wallLimit) (hidle : x.running = none)
    (hstart : State.start x.cursor boundedPerCycle (defaultLookbackIso now) = .ok s)
    (hpaging : s.paging = true → pages = x.pages)
    (hfirst : s.paging = false → pages ≠ [] ∧ ∃ d, isoToEpochSeconds s.fromTs = some d ∧
      pages.flatten.Perm (feed.returned d)) :
    Inv feed { x with running := some s, pages := pages, read := [] } := by
  have hlookback : Stable (defaultLookbackIso now) :=
    stable_isoSeconds _ (Nat.lt_of_le_of_lt (Nat.sub_le _ _) hnow)
  obtain ⟨hstable, hlatest, hcursor, hboundary, hwindow⟩ := start_cases hlookback hstart
  refine ⟨h.fed, h.known, nofun, ?_⟩
  intro s' hs'
  obtain rfl := Option.some.inj hs'
  refine ⟨hwindow, ?_, ?_, ?_, hstable, hlatest ▸ hstable, .inl hlatest⟩
  · cases hpage : s.paging with
    | true =>
      rw [State.paging, hcursor] at hpage
      obtain ⟨w, hw, hstored, hpending⟩ := h.stored hidle (of_decide_eq_true hpage)
      rw [hwindow w hw hstored, hpaging (by rw [State.paging, hcursor, hpage])]
      exact hpending
    | false =>
      obtain ⟨-, d, hd, hperm⟩ := hfirst hpage
      exact ⟨d, hd, hperm.subset, fun e he => .inr (hperm.symm.subset he)⟩
  · intro key hkey
    rw [hboundary] at hkey
    obtain ⟨m, hm, -, hin⟩ := BoundaryKeys.mem_load_previous hkey
    exact h.known m hm key hin
  · intro seen hseen
    rw [hboundary, (BoundaryKeys.load_frame _ _).2] at hseen
    cases hseen

/-- After a page its events have been yielded, and their keys are known. -/
theorem Running.page {s : State} {page : List Obj} {rest : List (List Obj)} {r : Reading}
    (h : Running feed x s) (hinv : Inv feed x) (hpages : x.pages = page :: rest)
    (hreads : Reads rt ⟨s.boundary, s.latestTs, []⟩ r page) (pageCursor : Option Text) :
    (∀ e ∈ x.yielded ++ r.emitted, ∃ d, e ∈ feed.returned d) ∧
      Running feed { x with
        pages := rest, read := x.read ++ page, yielded := x.yielded ++ r.emitted }
        (s.after pageCursor r) := by
  obtain ⟨d, hd, hsubset, hall⟩ := h.pending
  rw [hpages, List.flatten_cons] at hsubset hall
  have hpage : ∀ e ∈ page, e ∈ feed.returned d := fun e he =>
    hsubset (List.mem_append_left _ he)
  have hfed : ∀ e ∈ x.yielded ++ r.emitted, ∃ d, e ∈ feed.returned d := by
    intro e he
    obtain he | he := List.mem_append.1 he
    · exact hinv.fed e he
    · obtain hnil | he := hreads.emitted e he
      · cases hnil
      · exact ⟨d, hpage e he⟩
  -- an event that the memory skips is the one that was yielded under its key
  have hyielded : ∀ e ∈ page, e ∈ x.yielded ++ r.emitted := by
    intro e he
    obtain hin | ⟨hnamed, hkey⟩ := hreads.all e he
    · exact List.mem_append_right _ hin
    · obtain ⟨y, hy, hsame⟩ := h.previous _ hkey
      obtain ⟨d', hd'⟩ := hinv.fed y hy
      rw [feed.keyed d d' e (hpage e he) y hd' hnamed hsame.symm]
      exact List.mem_append_left _ hy
  refine ⟨hfed, h.window, ⟨d, hd, fun e he => hsubset (List.mem_append_right _ he), ?_⟩, ?_, ?_,
    h.stableFrom, hreads.stable h.stableLatest, ?_⟩
  · intro e he
    obtain hin | hin := hall e he
    · exact .inl (List.mem_append_left _ hin)
    · obtain hin | hin := List.mem_append.1 hin
      · exact .inl (hyielded e hin)
      · exact .inr hin
  · intro key hkey
    have hbefore : key ∈ s.boundary.previous := hreads.previous ▸ hkey
    exact (h.previous key hbefore).mono
  · intro seen hseen
    obtain hin | ⟨e, he, hkey⟩ := hreads.recent seen hseen
    · exact (h.recent seen hin).mono
    · exact ⟨e, hyielded e he, hkey⟩
  · obtain hsame | ⟨hlt, e, he, hmoves⟩ := hreads.latest h.stableLatest
    · have hlatest : (s.after pageCursor r).latestTs = s.latestTs := hsame
      rw [hlatest]
      obtain hsame | ⟨hlt, e, he, hmoves⟩ := h.latest
      · exact .inl hsame
      · exact .inr ⟨hlt, e, List.mem_append_left _ he, hmoves⟩
    · right
      refine ⟨?_, e, List.mem_append_right _ he, hmoves⟩
      obtain hsame | ⟨hbefore, -⟩ := h.latest
      · exact lt_of_eq_of_lt hsame.symm hlt
      · exact hbefore.trans hlt

theorem Running.finish_known {s : State} (h : Running feed x s) :
    ∀ m, s.finish.memory = some m → ∀ key ∈ m.keys, Known rt x.yielded key := by
  intro m hm key hkey
  obtain hin | ⟨seen, hseen, rfl⟩ := (BoundaryKeys.dump_sound hm).2 key hkey
  · exact h.previous key hin
  · exact h.recent seen hseen

theorem Running.resume_known {s : State} (h : Running feed x s) :
    ∀ m, s.resume.memory = some m → ∀ key ∈ m.keys, Known rt x.yielded key :=
  fun _ hm key hkey => h.previous key (mem_carry hm hkey)

/-- The window of a cycle that ends is the one that was stored, and where the window that it stores
is another, every event of the pagination has been yielded or is not earlier. -/
structure WindowLaw (feed : Feed rt) (x y : World) (s : State) : Prop where
  window : ∀ w, x.cursor.fromTs = some w → Stable w → s.fromTs = w
  stored : ∃ w, y.cursor.fromTs = some w ∧ Stable w ∧ (w ≠ s.fromTs →
    ∃ d, isoToEpochSeconds s.fromTs = some d ∧
      ∀ e ∈ feed.returned d, e ∈ y.yielded ∨ NotBefore e w)

variable {mayStale : World → State → Prop}

theorem Inv.stale {s : State} (h : Inv feed x) (hs : x.running = some s) :
    Inv feed (x.close s.stale) where
  fed := h.fed
  known := (h.running s hs).finish_known
  stored _ hpage := absurd rfl hpage
  running := nofun

theorem Inv.page {s : State} {payload : Obj} {page : List Obj} {rest : List (List Obj)}
    {outcome : Outcome × List Obj} (h : Inv feed x) (hs : x.running = some s)
    (hpages : x.pages = page :: rest) (hitems : extractItems payload = page.map .obj)
    (hmore : (extractCursor payload).2 = !rest.isEmpty)
    (houtcome : s.page rt payload = .ok outcome) :
    Inv feed (x.turn page rest outcome) ∧
      ((x.turn page rest outcome).running = none → WindowLaw feed x (x.turn page rest outcome) s) := by
  obtain ⟨outcome, emitted⟩ := outcome
  obtain ⟨r, hreads, rfl, hcases⟩ := page_cases hitems houtcome
  have hrun := h.running s hs
  obtain ⟨hfed, hafter⟩ := hrun.page h hpages hreads (extractCursor payload).1
  obtain ⟨hsome, rfl⟩ | ⟨hsome, rfl⟩ | ⟨hnone, rfl⟩ := hcases
  · refine ⟨⟨hfed, hafter.resume_known, ?_, nofun⟩, ?_⟩
    · intro _ _
      exact ⟨s.fromTs, rfl, hrun.stableFrom, hafter.pending⟩
    · intro _
      exact ⟨hrun.window, s.fromTs, rfl, hrun.stableFrom, fun hmoved => absurd rfl hmoved⟩
  · refine ⟨⟨hfed, ?_, nofun, ?_⟩, nofun⟩
    · intro m hm key hkey
      exact (h.known m hm key hkey).mono
    · intro s' hs'
      obtain rfl := Option.some.inj hs'
      exact ⟨hafter.window, hafter.pending, hafter.previous, hafter.recent, hafter.stableFrom,
        hafter.stableLatest, hafter.latest⟩
  · refine ⟨⟨hfed, hafter.finish_known, ?_, nofun⟩, ?_⟩
    · intro _ hpage
      exact absurd rfl hpage
    · intro _
      refine ⟨hrun.window, r.latestTs, rfl, hafter.stableLatest, fun _ => ?_⟩
      -- no page is left, so that all has been yielded
      have hlast : rest = [] := by
        rw [hnone] at hmore
        cases rest with
        | nil => rfl
        | cons page rest => cases hmore
      obtain ⟨d, hd, -, hall⟩ := hafter.pending
      refine ⟨d, hd, fun e he => ?_⟩
      obtain hin | hin := hall e he
      · exact .inl hin
      · rw [hlast] at hin
        cases hin

theorem Inv.step (h : Inv feed x) (hstep : Step rt feed mayStale x y) : Inv feed y := by
  cases hstep with
  | start boundedPerCycle now pages hnow hidle hstart hpaging hfirst =>
    exact h.start hnow hidle hstart hpaging hfirst
  | page payload hs hpages hitems hmore houtcome =>
    exact (h.page hs hpages hitems hmore houtcome).1
  | stale hs _ _ => exact h.stale hs

theorem inv_of_run (h : Fresh feed x) (hrun : Relation.ReflTransGen (Step rt feed mayStale) x y) :
    Inv feed y := by
  induction hrun with
  | refl => exact h.inv
  | tail _ hstep ih => exact ih.step hstep

theorem Inv.stale_law {s : State} (h : Inv feed x) (hs : x.running = some s) (hsettled : Settled x s) :
    WindowLaw feed x (x.close s.stale) s := by
  have hrun := h.running s hs
  refine ⟨hrun.window, s.latestTs, rfl, hrun.stableLatest, fun hmoved => ?_⟩
  obtain ⟨d, hd, -, hall⟩ := hrun.pending
  refine ⟨d, hd, fun e he => ?_⟩
  by_cases hin : e ∈ x.yielded
  · exact .inl hin
  · obtain hsame | ⟨hlt, r, hr, hmoves⟩ := hrun.latest
    · exact absurd hsame hmoved
    · exact .inr (hsettled e ((hall e he).resolve_left hin) hin r hr s.latestTs hmoves hlt)

/-- In every run in which a 400 comes only when it loses nothing, a window moves only over events
that have been yielded. -/
theorem siem_window_law {x₀ : World} {s : State} (hfresh : Fresh feed x₀)
    (hrun : Relation.ReflTransGen (Step rt feed Settled) x₀ x)
    (hstep : Step rt feed Settled x y) (hs : x.running = some s) (hend : y.running = none) :
    WindowLaw feed x y s := by
  have hinv := inv_of_run hfresh hrun
  cases hstep with
  | start boundedPerCycle now pages hnow hidle hstart hpaging hfirst => cases hend
  | page payload hs' hpages hitems hmore houtcome =>
    obtain rfl := Option.some.inj (hs.symm.trans hs')
    exact (hinv.page hs hpages hitems hmore houtcome).2 hend
  | stale hs' _ hsettled =>
    obtain rfl := Option.some.inj (hs.symm.trans hs')
    exact hinv.stale_law hs hsettled

end Window

section TwoEvents

def midnight : Text := text "2026-04-23T00:00:00Z"

def noonEvent : Obj := [("id", .str "noon"), ("created_at", .str "2026-04-23T12:00:00Z")]

def dawnEvent : Obj := [("id", .str "dawn"), ("created_at", .str "2026-04-23T06:00:00Z")]

/-- A feed of two events. -/
def twoEvents : Feed Runtime.ascii where
  returned d := [noonEvent, dawnEvent].filter (fun e =>
    ((asText (e.getN "created_at")).bind isoToEpochSeconds).any (fun t => decide (d ≤ t)))
  keyed := by
    have hall : ∀ e ∈ [noonEvent, dawnEvent], ∀ e' ∈ [noonEvent, dawnEvent],
        extractMessageId Runtime.ascii e = extractMessageId Runtime.ascii e' → e = e' := by decide
    intro d d' e he e' he' _ hsame
    exact hall e (List.mem_of_mem_filter he) e' (List.mem_of_mem_filter he') hsame

def noonPage : Obj :=
  [("items", .list [.obj noonEvent]), ("next_cursor", .str "p2"), ("has_more", .bool true)]

def bothPage : Obj :=
  [("items", .list [.obj noonEvent, .obj dawnEvent]), ("has_more", .bool false)]

def noonTs : Text := text "2026-04-23T12:00:00Z"

def idle : World := { cursor := { fromTs := some midnight } }

/-- A cycle whose window begins at midnight. -/
def opened : State :=
  ⟨midnight, none, midnight, .load none (some midnight), 0, idle.cursor, true⟩

def begun (pages : List (List Obj)) : World :=
  { idle with running := some opened, pages := pages, read := [] }

theorem idle_fresh : Fresh twoEvents idle where
  idle := rfl
  noPage := rfl
  fed := nofun
  known := nofun

theorem midnight_epoch : isoToEpochSeconds midnight = some 1776902400 := by decide +kernel

theorem twoEvents_returned : twoEvents.returned 1776902400 = [noonEvent, dawnEvent] := by
  decide +kernel

theorem idle_begun (mayStale : World → State → Prop) {pages : List (List Obj)}
    (hpages : pages.flatten = [noonEvent, dawnEvent]) :
    Step Runtime.ascii twoEvents mayStale idle (begun pages) := by
  have hmidnight : midnight = isoSeconds 63912499200000000 := by decide +kernel
  have hstable : Stable midnight := by
    rw [hmidnight]
    exact stable_isoSeconds _ (by decide)
  have hfrom : orText idle.cursor.fromTs (orText idle.cursor.backfillFromTs
      (defaultLookbackIso 63912499200000000)) = midnight :=
    orText_some (stable_ne_nil hstable) _
  have hstart : State.start idle.cursor true (defaultLookbackIso 63912499200000000) =
      .ok opened := by
    rw [State.start, hfrom, hstable]
    rfl
  apply Step.start true 63912499200000000 pages (by decide) rfl hstart nofun
  intro _
  constructor
  · rintro rfl
    cases hpages
  · exact ⟨1776902400, midnight_epoch, by rw [hpages, twoEvents_returned]⟩

/-- A page with both events ends the cycle, and the window moves to noon. -/
theorem one_page_moves : ∃ y, Step Runtime.ascii twoEvents Settled (begun [[noonEvent, dawnEvent]]) y ∧
    y.cursor.fromTs = some noonTs ∧ WindowLaw twoEvents (begun [[noonEvent, dawnEvent]]) y opened := by
  have hread : (match opened.page Runtime.ascii bothPage with
    | .ok (.returned c, _) => decide (c.fromTs = some noonTs)
    | _ => false) = true := by decide +kernel
  split at hread
  · rename_i c emitted hpage
    have hstep : Step Runtime.ascii twoEvents Settled (begun [[noonEvent, dawnEvent]]) _ :=
      .page bothPage rfl rfl rfl rfl hpage
    have hbegun : Step Runtime.ascii twoEvents Settled idle (begun [[noonEvent, dawnEvent]]) :=
      idle_begun Settled rfl
    have hrun := Relation.ReflTransGen.single hbegun
    exact ⟨_, hstep, of_decide_eq_true hread, siem_window_law idle_fresh hrun hstep rfl rfl⟩
  · cases hread

theorem dawn_before_noon : ¬ NotBefore dawnEvent noonTs := by
  rintro ⟨created, t, bound, hcreated, hdawn, hbound, hle⟩
  have hdawn' : instant (.str (text "2026-04-23T06:00:00Z")) = some 63912520800000000 := by
    decide +kernel
  have hnoon' : instant (.str noonTs) = some 63912542400000000 := by decide +kernel
  obtain rfl := Option.some.inj hcreated
  rw [hdawn'] at hdawn
  rw [hnoon'] at hbound
  obtain rfl := Option.some.inj hdawn
  obtain rfl := Option.some.inj hbound
  exact absurd hle (by decide)

/-- A 400 to the second page moves the window from midnight to noon, and the event of dawn is
lost. -/
theorem stale_page_loses : ∃ x y s, Fresh twoEvents idle ∧
    Relation.ReflTransGen (Step Runtime.ascii twoEvents (fun _ _ => True)) idle x ∧
    Step Runtime.ascii twoEvents (fun _ _ => True) x y ∧ x.running = some s ∧ y.running = none ∧
    x.cursor.fromTs = some midnight ∧ y.cursor.fromTs = some noonTs ∧ s.fromTs = midnight ∧
    isoToEpochSeconds midnight = some 1776902400 ∧ dawnEvent ∈ twoEvents.returned 1776902400 ∧
    dawnEvent ∉ y.yielded ∧ ¬ NotBefore dawnEvent noonTs := by
  have hread : (match opened.page Runtime.ascii noonPage with
    | .ok (.running s, emitted) => decide (s.fromTs = midnight ∧ s.latestTs = noonTs ∧
        s.paging = true ∧ emitted = [noonEvent])
    | _ => false) = true := by decide +kernel
  split at hread
  · rename_i s emitted hpage
    obtain ⟨hwindow, hlatest, hpaging, rfl⟩ := of_decide_eq_true hread
    have hnoon : Step Runtime.ascii twoEvents (fun _ _ => True)
        (begun [[noonEvent], [dawnEvent]]) _ := .page noonPage rfl rfl rfl rfl hpage
    have hrun := (Relation.ReflTransGen.single (idle_begun _ rfl)).tail hnoon
    have hreturned : dawnEvent ∈ twoEvents.returned 1776902400 := by
      rw [twoEvents_returned]
      decide
    have hlost : dawnEvent ∉ [noonEvent] := by decide
    exact ⟨_, _, s, idle_fresh, hrun, .stale rfl hpaging trivial, rfl, rfl, rfl,
      congrArg some hlatest, hwindow, midnight_epoch, hreturned, hlost, dawn_before_noon⟩
  · cases hread

end TwoEvents

end SophosSiem

end CentralOps
