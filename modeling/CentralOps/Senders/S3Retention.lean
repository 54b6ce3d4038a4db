import CentralOps.Lib.IsoRoundTrip
import CentralOps.Senders.S3Erasure

namespace CentralOps
set_option autoImplicit true

/-- `str.isdigit` of a character, and the digit that `int` reads it as. -/
structure DigitTable where
  isDigit : Char → Bool
  digit : Char → Option Nat
  isDigit_ascii : ∀ c, c.isDigit = true → isDigit c = true
  digit_ascii : ∀ c, c.isDigit = true → digit c = some (c.toNat - '0'.toNat)

section Dates
variable (table : DigitTable)

/-- `int` of digits. -/
def readDigits : Nat → List Char → Except PyError Nat
  | n, [] => .ok n
  | n, c :: cs =>
    match table.digit c with
    | some d => readDigits (10 * n + d) cs
    | none => .error .valueError

def segmentDate (y m d : List Char) : Except PyError (Option Nat) :=
  if y.length = 4 ∧ m.length = 2 ∧ d.length = 2 ∧ (y ++ m ++ d).all table.isDigit = true then do
    let year ← readDigits table 0 y
    let month ← readDigits table 0 m
    let day ← readDigits table 0 d
    if 1970 ≤ year ∧ year ≤ 9999 ∧ 1 ≤ month ∧ month ≤ 12 ∧ 1 ≤ day ∧ day ≤ 31 then
      pure ((Py.DateTime.make year month day 0 0 0 (some 0)).map (·.wall))
    else pure none
  else pure none

def scanDates : List (List Char) → Except PyError (Option Nat)
  | y :: m :: d :: rest => do
    match ← scanDates (m :: d :: rest) with
    | some wall => pure (some wall)
    | none => segmentDate table y m d
  | _ => pure none

/-- `_extract_partition_date`. -/
def extractPartitionDate (key : String) : Except PyError (Option Nat) :=
  scanDates table (key.toList.splitOn '/')

/-- `_is_expired`. -/
def isExpired (key : String) (lastModified : Option UtcClock) (cutoff : Nat) :
    Except PyError Bool := do
  match ← extractPartitionDate table key with
  | some partition => pure (decide (partition < cutoff))
  | none => pure (lastModified.any (fun modified => decide (modified.val < cutoff)))

end Dates

/-- An answer of `list_objects_v2`: keys, each with its `LastModified`. -/
structure ListingPage where
  contents : List (String × Option UtcClock)
  truncated : Bool
  token : Option String

section Prune
variable (table : DigitTable) (refused : String → Bool)

def staleKeys (cutoff : Nat) : List (String × Option UtcClock) → Except PyError (List String)
  | [] => .ok []
  | e :: contents => do
    let expired ← isExpired table e.1 e.2 cutoff
    let stale ← staleKeys cutoff contents
    pure (if expired then e.1 :: stale else stale)

def prunePages (cutoff : Nat) :
    List ListingPage → Nat → Dict String S3Put → Except PyError (Option (Nat × Dict String S3Put))
  | [], _, _ => .ok none
  | page :: pages, deleted, bucket => do
    let stale ← staleKeys table cutoff page.contents
    let left := bucket.filterKeys (fun k => decide (k ∉ stale) || refused k)
    match if page.truncated then page.token.filter (· ≠ "") else none with
    | some _ => prunePages cutoff pages (deleted + stale.length) left
    | none => pure (some (deleted + stale.length, left))

/-- `prune_expired`, on the pages of its listing. -/
def pruneExpired (retentionDays : Int) (now : UtcClock) (pages : List ListingPage)
    (bucket : Dict String S3Put) : Except PyError (Option (Nat × Dict String S3Put)) :=
  if retentionDays ≤ 0 then .ok (some (0, bucket))
  else if retentionDays * Py.dayMicros ≤ now.val then
    prunePages table refused (now.val - retentionDays.toNat * Py.dayMicros) pages 0 bucket
  else .error .overflowError

end Prune

/-- What a call of `send_batch` by a client with a prefix of its own leaves of a bucket. -/
def putObject (rt : Runtime) (bucket : Dict String S3Put) (x : String × S3Put) :
    Dict String S3Put :=
  match S3Client.sendBatch rt ⟨x.1, x.2.gzip, x.2.hasCredentials⟩ x.2.batch x.2.clock x.2.reply with
  | .ok (_, some key) =>
    match x.2.reply with
    | .done => bucket.set key x.2
    | _ => if x.2.landed then bucket.set key x.2 else bucket
  | _ => bucket

def coldStore (rt : Runtime) (puts : List (String × S3Put)) : Dict String S3Put :=
  puts.foldl (putObject rt) .empty

/-- The instant that `_partition_dt` takes for an object. -/
def S3Put.partition (x : S3Put) : Option Nat :=
  x.batch.head?.bind (fun ev => (partitionWall ev x.clock).toOption)

def midnight (wall : Nat) : Nat := wall / Py.dayMicros * Py.dayMicros

def Chained : List ListingPage → Prop
  | [] => False
  | [page] => page.truncated = false
  | page :: pages => page.truncated = true ∧ page.token.filter (· ≠ "") ≠ none ∧ Chained pages

/-- A listing of the folder of a client. -/
structure Lists (client : S3Client) (bucket : Dict String S3Put) (pages : List ListingPage) :
    Prop where
  chained : Chained pages
  nodup : ((pages.flatMap (·.contents)).map Prod.fst).Nodup
  keys : ∀ k, k ∈ (pages.flatMap (·.contents)).map Prod.fst ↔
    bucket.get? k ≠ none ∧ (client.keyPrefix ++ "/org=").toList <+: k.toList

/-- What a retention is to do between two states of a bucket, with what it returns. -/
structure Retained (table : DigitTable) (client : S3Client) (reached : Obj → Nat) (span : Nat)
    (now : UtcClock) (bucket left : Dict String S3Put) (deleted : Nat) : Prop where
  notEarly : ∀ k x, bucket.get? k = some x → left.get? k = none →
    ∀ ev ∈ x.batch, reached ev + span ≤ now
  notLate : ∀ k x, bucket.get? k = some x → (client.keyPrefix ++ "/org=").toList <+: k.toList →
    ∀ wall, x.partition = some wall → midnight wall + Py.dayMicros + span ≤ now →
      left.get? k = none
  counted : deleted = (bucket.keys \ left.keys).card
  dated : ∀ k x, bucket.get? k = some x →
    ∃ wall, x.partition = some wall ∧ extractPartitionDate table k = .ok (some (midnight wall))

/-- The cutoff is a date, no object is of a year before 1970, and what is of a day that began before
the cutoff can be deleted and holds nothing that came after the cutoff. -/
structure Prunable (client : S3Client) (refused : String → Bool) (reached : Obj → Nat) (span : Nat)
    (now : UtcClock) (bucket : Dict String S3Put) : Prop where
  cutoff : span ≤ now
  recent : ∀ k x, bucket.get? k = some x → ∀ wall, x.partition = some wall → 1970 ≤ (utcDate wall).1
  due : ∀ k x, bucket.get? k = some x → (client.keyPrefix ++ "/org=").toList <+: k.toList →
    ∀ wall, x.partition = some wall → midnight wall + span < now →
      refused k = false ∧ ∀ ev ∈ x.batch, reached ev + span ≤ now

section Extract
variable {table : DigitTable}

theorem readDigits_ascii (n : Nat) {cs : List Char} (h : ∀ c ∈ cs, c.isDigit = true) :
    readDigits table n cs = .ok (Nat.ofDigitChars 10 cs n) := by
  induction cs generalizing n with
  | nil => rw [readDigits, Nat.ofDigitChars_nil]
  | cons c cs ih =>
    obtain ⟨hc, hcs⟩ := List.forall_mem_cons.1 h
    rw [readDigits, table.digit_ascii c hc, Nat.ofDigitChars_cons]
    exact ih _ hcs

theorem readDigits_padded (width n : Nat) :
    readDigits table 0 (Decimal.padded width n) = .ok n := by
  rw [readDigits_ascii 0 (Decimal.isDigit_padded width n), Decimal.ofDigitChars_padded]

/-- What is read of the date of a key. -/
theorem segmentDate_padded (h : Py.DateTime.validDate y m d = true) :
    segmentDate table (Decimal.padded 4 y) (Decimal.padded 2 m) (Decimal.padded 2 d) =
      .ok (if 1970 ≤ y then (Py.DateTime.make y m d 0 0 0 (some 0)).map (·.wall) else none) := by
  have hvalid := h
  simp only [Py.DateTime.validDate, Bool.and_eq_true, decide_eq_true_eq] at hvalid
  have hdays : Py.daysInMonth y m ≤ 31 := Py.daysInMonth_le y m
  have hall : (Decimal.padded 4 y ++ Decimal.padded 2 m ++ Decimal.padded 2 d).all
      table.isDigit = true := by
    rw [List.all_eq_true]
    intro c hc
    apply table.isDigit_ascii
    simp only [List.mem_append] at hc
    rcases hc with (hc | hc) | hc
    · exact Decimal.isDigit_padded 4 y c hc
    · exact Decimal.isDigit_padded 2 m c hc
    · exact Decimal.isDigit_padded 2 d c hc
  rw [segmentDate, if_pos ⟨Decimal.length_padded (by decide) (by omega),
    Decimal.length_padded (by decide) (by omega), Decimal.length_padded (by decide) (by omega),
    hall⟩, readDigits_padded, readDigits_padded, readDigits_padded]
  change (if _ then _ else _) = _
  by_cases hyear : 1970 ≤ y
  · rw [if_pos hyear, if_pos (by omega)]
    rfl
  · rw [if_neg hyear, if_neg (by omega)]
    rfl

theorem utcDate_spec (h : wall < Py.wallLimit) :
    Py.DateTime.validDate (utcDate wall).1 (utcDate wall).2.1 (utcDate wall).2.2 = true ∧
      Py.toOrdinal (utcDate wall).1 (utcDate wall).2.1 (utcDate wall).2.2 =
        wall / Py.dayMicros + 1 := by
  have hday : wall / Py.dayMicros < 3652059 := Nat.div_lt_of_lt_mul (by rwa [Nat.mul_comm])
  exact Py.ofOrdinal_spec (wall / Py.dayMicros + 1) (Nat.le_add_left _ _) hday

theorem make_midnight (h : wall < Py.wallLimit) :
    (Py.DateTime.make (utcDate wall).1 (utcDate wall).2.1 (utcDate wall).2.2 0 0 0 (some 0)).map
      (·.wall) = some (midnight wall) := by
  obtain ⟨hvalid, hordinal⟩ := utcDate_spec h
  have hin : midnight wall < Py.wallLimit := lt_of_le_of_lt (Nat.div_mul_le_self _ _) h
  have hmicros : ((0 * 60 + 0) * 60 + 0) * 1000000 = 0 := rfl
  have hwall : (wall / Py.dayMicros + 1 - 1) * Py.dayMicros + 0 = midnight wall := by
    rw [Nat.add_sub_cancel, Nat.add_zero, midnight]
  rw [Py.DateTime.make, if_pos ⟨hvalid, rfl⟩, hordinal, hmicros, Py.DateTime.ofWall]
  simp only [hwall]
  rw [dif_pos ⟨Nat.le_add_left _ _, hin⟩]
  rfl

/-- The days of the years before the last `y`. -/
theorem daysOfYears (y : Nat) :
    y * 365 + y / 4 - y / 100 + y / 400 = y * 365 + (y / 4 - y / 4 / 25) + y / 4 / 100 := by
  rw [Nat.div_div_eq_div_mul, Nat.div_div_eq_div_mul, Nat.add_sub_assoc]
  exact Nat.div_le_div_left (by decide) (by decide)

theorem le_toOrdinal (h : 1970 ≤ year) (hday : 1 ≤ day) (month : Nat) :
    719162 < Py.toOrdinal year month day := by
  have hfour : 492 ≤ (year - 1) / 4 := by omega
  rw [Py.toOrdinal, daysOfYears]
  generalize (year - 1) / 4 = n at hfour ⊢
  omega

theorem toOrdinal_le (h : year < 1970) (hvalid : Py.DateTime.validDate year month day = true) :
    Py.toOrdinal year month day ≤ 719162 := by
  have hall : ∀ leap : Bool, ∀ month < 13, 1 ≤ month →
      Py.daysBeforeMonth (if leap then 4 else 1) month +
        Py.daysInMonth (if leap then 4 else 1) month ≤ if leap then 366 else 365 := by decide
  simp only [Py.DateTime.validDate, Bool.and_eq_true, decide_eq_true_eq] at hvalid
  have hyear := hall (Py.isLeap year) month (by omega) (by omega)
  rw [← Py.daysBeforeMonth_eq, ← Py.daysInMonth_eq] at hyear
  have hyears : year - 1 ≤ 1967 ∨ Py.isLeap year = false := by
    cases hleap : Py.isLeap year with
    | true =>
      have hfour := ((Py.isLeap_iff year).1 hleap).1
      exact .inl (by omega)
    | false => exact .inr rfl
  have hfour : (year - 1) / 4 ≤ 492 := by omega
  rw [Py.toOrdinal, daysOfYears]
  generalize (year - 1) / 4 = n at hfour ⊢
  rcases hyears with hyears | hleap
  · have hlength : Py.daysBeforeMonth year month + Py.daysInMonth year month ≤ 366 := by
      refine hyear.trans ?_
      split <;> decide
    omega
  · rw [hleap, if_neg Bool.false_ne_true] at hyear
    omega

theorem scanDates_cons (s : List Char) {l : List (List Char)}
    (h : scanDates table l = .ok (some wall)) : scanDates table (s :: l) = .ok (some wall) := by
  cases l with
  | nil => cases h
  | cons m l =>
    cases l with
    | nil => cases h
    | cons d rest =>
      rw [scanDates, h]
      rfl

theorem scanDates_short (y m d file : List Char) (hm : m.length = 2) :
    scanDates table [y, m, d, file] = segmentDate table y m d := by
  have hshort : segmentDate table m d file = .ok none := by
    rw [segmentDate, if_neg]
    · rfl
    · rw [hm]
      simp
  have hlast : scanDates table [m, d, file] = .ok none := hshort
  rw [scanDates, hlast]
  rfl

theorem scanDates_tail (segments : List (List Char)) {l : List (List Char)}
    (h : scanDates table l = .ok (some wall)) :
    scanDates table (segments ++ l) = .ok (some wall) := by
  induction segments with
  | nil => exact h
  | cons s segments ih => exact scanDates_cons s ih

/-- No date that is read is before 1970. -/
theorem segmentDate_late (h : segmentDate table y m d = .ok (some wall)) :
    719162 * Py.dayMicros ≤ wall := by
  rw [segmentDate] at h
  split_ifs at h
  · obtain ⟨year, -, h⟩ := Except.bind_eq_ok h
    obtain ⟨month, -, h⟩ := Except.bind_eq_ok h
    obtain ⟨day, -, h⟩ := Except.bind_eq_ok h
    split_ifs at h with hrange
    · have hmake := Except.ok.inj h
      obtain ⟨date, hdate, rfl⟩ := Option.map_eq_some_iff.1 hmake
      rw [Py.DateTime.make] at hdate
      split_ifs at hdate
      rw [Py.DateTime.ofWall] at hdate
      split_ifs at hdate
      cases hdate
      have hlate := le_toOrdinal hrange.1 hrange.2.2.2.2.1 month
      exact Nat.le_add_right_of_le (Nat.mul_le_mul_right _ (Nat.le_sub_one_of_lt hlate))
    · cases Except.ok.inj h
  · cases Except.ok.inj h

theorem scanDates_late {l : List (List Char)} (h : scanDates table l = .ok (some wall)) :
    719162 * Py.dayMicros ≤ wall := by
  induction l with
  | nil => cases h
  | cons y l ih =>
    cases l with
    | nil => cases h
    | cons m l =>
      cases l with
      | nil => cases h
      | cons d rest =>
        rw [scanDates] at h
        cases hrest : scanDates table (m :: d :: rest) with
        | error e => rw [hrest] at h; cases h
        | ok found =>
          rw [hrest] at h
          cases found with
          | some w =>
            cases h
            exact ih hrest
          | none => exact segmentDate_late h

theorem midnight_early (h : wall < Py.wallLimit) (hyear : (utcDate wall).1 < 1970) :
    midnight wall < 719162 * Py.dayMicros := by
  obtain ⟨hvalid, hordinal⟩ := utcDate_spec h
  have hle := toOrdinal_le hyear hvalid
  rw [hordinal] at hle
  exact Nat.mul_lt_mul_of_pos_right hle (by decide)

variable {rt : Runtime}

theorem toList_datePath (wall : Nat) : (datePath wall).toList =
    Decimal.padded 4 (utcDate wall).1 ++ '/' :: (Decimal.padded 2 (utcDate wall).2.1 ++
      '/' :: Decimal.padded 2 (utcDate wall).2.2) := by
  rw [datePath, String.toList_ofList, Words.intercalate_cons]
  simp

theorem partitionWall_lt {ev : Obj} {clock : UtcClock} (h : partitionWall ev clock = .ok wall) :
    wall < Py.wallLimit := by
  rw [partitionWall.eq_def] at h
  dsimp only at h
  split at h
  · split at h
    · exact Except.ok.inj h ▸ clock.isLt
    · split at h
      · split at h
        · next hutc => exact Except.ok.inj h ▸ Py.utcWall_lt hutc
        · cases h
      · exact Except.ok.inj h ▸ clock.isLt
  · exact Except.ok.inj h ▸ clock.isLt

theorem objectKey_segments {client : S3Client} {ev : Obj} {rest : List Obj} {clock : UtcClock}
    (h : client.objectKey rt (ev :: rest) clock = .ok key)
    (hwall : partitionWall ev clock = .ok wall) : ∃ segments file,
      key.toList.splitOn '/' = segments ++ [Decimal.padded 4 (utcDate wall).1,
        Decimal.padded 2 (utcDate wall).2.1, Decimal.padded 2 (utcDate wall).2.2, file] := by
  rw [S3Client.objectKey] at h
  simp only [List.head?_cons, Option.map_some, Option.getD_some, hwall] at h
  obtain rfl := Except.ok.inj h
  have hhash : '/' ∉ (batchHash rt (ev :: rest)).toList := by
    intro hin
    rw [batchHash, sha1Hex, String.toList_ofList] at hin
    obtain ⟨i, -, hi⟩ := List.mem_map.1 hin
    have hall : ∀ n < 16, Nat.digitChar n ≠ '/' := by decide
    exact hall _ (Nat.mod_lt _ (by decide)) hi
  have hext : ∀ gzip : Bool, '/' ∉ (if gzip then "ndjson.gz" else "ndjson").toList := by decide
  have hfile : '/' ∉ (batchHash rt (ev :: rest)).toList ++
      '.' :: (if client.gzip then "ndjson.gz" else "ndjson").toList := by
    rw [List.mem_append, List.mem_cons, not_or, not_or]
    exact ⟨hhash, by decide, hext client.gzip⟩
  have htext : (client.keyPrefix ++ "/org=" ++ s3OrgId rt ev ++ "/" ++ datePath wall ++ "/" ++
      batchHash rt (ev :: rest) ++ "." ++ if client.gzip then "ndjson.gz" else "ndjson").toList =
      (client.keyPrefix ++ "/org=" ++ s3OrgId rt ev).toList ++
        '/' :: (Decimal.padded 4 (utcDate wall).1 ++ '/' :: (Decimal.padded 2 (utcDate wall).2.1 ++
          '/' :: (Decimal.padded 2 (utcDate wall).2.2 ++
            '/' :: ((batchHash rt (ev :: rest)).toList ++
              '.' :: (if client.gzip then "ndjson.gz" else "ndjson").toList)))) := by
    simp [toList_datePath]
  have hfree : ∀ width n, '/' ∉ Decimal.padded width n :=
    fun width n => Decimal.notMem_padded width n rfl
  rw [htext, Words.splitOn_append, Words.splitOn_append, Words.splitOn_append, Words.splitOn_append,
    Words.splitOn_free (hfree _ _), Words.splitOn_free (hfree _ _), Words.splitOn_free (hfree _ _),
    Words.splitOn_free hfile]
  exact ⟨_, _, rfl⟩

/-- The date of a key is found, whatever stands before it, unless it is of a year before 1970. -/
theorem extract_iff {client : S3Client} {ev : Obj} {rest : List Obj} {clock : UtcClock}
    (h : client.objectKey rt (ev :: rest) clock = .ok key)
    (hwall : partitionWall ev clock = .ok wall) :
    extractPartitionDate table key = .ok (some (midnight wall)) ↔ 1970 ≤ (utcDate wall).1 := by
  obtain ⟨segments, file, hsplit⟩ := objectKey_segments h hwall
  have hlimit := partitionWall_lt hwall
  rw [extractPartitionDate, hsplit]
  constructor
  · intro hscan
    by_contra hyear
    have hlate := scanDates_late hscan
    have hearly := midnight_early hlimit (Nat.lt_of_not_le hyear)
    omega
  · intro hyear
    apply scanDates_tail
    rw [scanDates_short _ _ _ _ (Decimal.length_padded (by decide) ?_)]
    · rw [segmentDate_padded (utcDate_spec hlimit).1, if_pos hyear, make_midnight hlimit]
    · have hvalid := (utcDate_spec hlimit).1
      simp only [Py.DateTime.validDate, Bool.and_eq_true, decide_eq_true_eq] at hvalid
      omega

end Extract

section Store
variable {rt : Runtime}

def FiledPut (rt : Runtime) (k : String) (x : S3Put) : Prop :=
  ∃ client : S3Client, ∃ ev rest wall, x.batch = ev :: rest ∧ x.partition = some wall ∧
    client.objectKey rt (ev :: rest) x.clock = .ok k ∧ partitionWall ev x.clock = .ok wall

theorem objectKey_partition {client : S3Client} {ev : Obj} {rest : List Obj} {clock : UtcClock}
    (h : client.objectKey rt (ev :: rest) clock = .ok key) :
    ∃ wall, partitionWall ev clock = .ok wall := by
  rw [S3Client.objectKey] at h
  simp only [List.head?_cons, Option.map_some, Option.getD_some] at h
  obtain ⟨wall, hwall, -⟩ := Except.bind_eq_ok h
  exact ⟨wall, hwall⟩

theorem putObject_done {bucket : Dict String S3Put} {x : String × S3Put}
    (hsend : S3Client.sendBatch rt ⟨x.1, x.2.gzip, x.2.hasCredentials⟩ x.2.batch x.2.clock
      x.2.reply = .ok (r, some key)) (hreply : x.2.reply = .done) :
    putObject rt bucket x = bucket.set key x.2 := by
  rw [putObject, hsend]
  dsimp only
  rw [hreply]

theorem putObject_filed {bucket : Dict String S3Put} (x : String × S3Put)
    (h : ∀ k y, bucket.get? k = some y → FiledPut rt k y) :
    ∀ k y, (putObject rt bucket x).get? k = some y → FiledPut rt k y := by
  intro k y hy
  rw [putObject] at hy
  split at hy
  · next key hsend =>
    have hset : (bucket.set key x.2).get? k = some y → FiledPut rt k y := by
      intro hset
      by_cases hk : k = key
      · subst hk
        rw [Dict.get?_set_self] at hset
        cases hset
        obtain ⟨ev, rest, hbatch, hkey⟩ := sendBatch_key hsend
        rw [hbatch] at hkey
        obtain ⟨wall, hwall⟩ := objectKey_partition hkey
        refine ⟨_, ev, rest, wall, hbatch, ?_, hkey, hwall⟩
        rw [S3Put.partition, hbatch, List.head?_cons, Option.bind_some, hwall]
        rfl
      · rw [Dict.get?_set_ne _ hk] at hset
        exact h k y hset
    split at hy
    · exact hset hy
    · split at hy
      · exact hset hy
      · exact h k y hy
  · exact h k y hy

theorem coldStore_filed (rt : Runtime) (puts : List (String × S3Put)) :
    ∀ k x, (coldStore rt puts).get? k = some x → FiledPut rt k x := by
  induction puts using List.reverseRecOn with
  | nil =>
    intro k x hx
    cases hx
  | append_singleton puts x ih =>
    rw [coldStore, List.foldl_append]
    exact putObject_filed x ih

end Store

section Loop
variable {table : DigitTable} {cutoff : Nat} {expired : String → Bool}

theorem staleKeys_ok {contents : List (String × Option UtcClock)}
    (h : ∀ e ∈ contents, isExpired table e.1 e.2 cutoff = .ok (expired e.1)) :
    staleKeys table cutoff contents = .ok ((contents.map Prod.fst).filter expired) := by
  induction contents with
  | nil => rfl
  | cons e contents ih =>
    obtain ⟨he, hcontents⟩ := List.forall_mem_cons.1 h
    rw [staleKeys, he, ih hcontents, List.map_cons, List.filter_cons]
    rfl

/-- The loop goes through all pages and takes what has expired. -/
theorem prunePages_ok (refused : String → Bool) {pages : List ListingPage} (hchained : Chained pages)
    (h : ∀ e ∈ pages.flatMap (·.contents), isExpired table e.1 e.2 cutoff = .ok (expired e.1))
    (deleted : Nat) (bucket : Dict String S3Put) :
    ∃ left, prunePages table refused cutoff pages deleted bucket = .ok (some (deleted +
        (((pages.flatMap (·.contents)).map Prod.fst).filter expired).length, left)) ∧
      ∀ k, left.get? k =
        if k ∈ ((pages.flatMap (·.contents)).map Prod.fst).filter expired ∧ refused k = false then
          none
        else bucket.get? k := by
  induction pages generalizing deleted bucket with
  | nil => exact hchained.elim
  | cons page pages ih =>
    rw [List.flatMap_cons, List.forall_mem_append] at h
    have hstale := staleKeys_ok h.1
    rw [prunePages, hstale]
    have hleft : ∀ k, (bucket.filterKeys (fun k =>
        decide (k ∉ (page.contents.map Prod.fst).filter expired) || refused k)).get? k =
        if k ∈ (page.contents.map Prod.fst).filter expired ∧ refused k = false then none
        else bucket.get? k := by
      intro k
      rw [Dict.get?_filterKeys]
      by_cases hk : k ∈ (page.contents.map Prod.fst).filter expired
      · cases refused k <;> simp [hk]
      · simp [hk]
    cases pages with
    | nil =>
      have hlast : page.truncated = false := hchained
      rw [hlast]
      simp only [List.flatMap_cons, List.flatMap_nil, List.append_nil]
      exact ⟨_, rfl, hleft⟩
    | cons next pages =>
      obtain ⟨htruncated, htoken, hchained⟩ := hchained
      obtain ⟨token, htoken⟩ := Option.ne_none_iff_exists'.1 htoken
      obtain ⟨left, hrun, hget⟩ := ih hchained h.2
        (deleted + ((page.contents.map Prod.fst).filter expired).length)
        (bucket.filterKeys (fun k =>
          decide (k ∉ (page.contents.map Prod.fst).filter expired) || refused k))
      rw [List.flatMap_cons, List.map_append, List.filter_append]
      refine ⟨left, ?_, fun k => ?_⟩
      · rw [if_pos htruncated, htoken, List.length_append, ← Nat.add_assoc]
        exact hrun
      · simp only [hget, hleft, List.mem_append]
        split_ifs <;> tauto

end Loop

section Retention
variable {rt : Runtime} {table : DigitTable} {client : S3Client} {refused : String → Bool}
  {reached : Obj → Nat} {now : UtcClock} {bucket : Dict String S3Put} {pages : List ListingPage}

def expiredKey (table : DigitTable) (cutoff : Nat) (k : String) : Bool :=
  match extractPartitionDate table k with
  | .ok (some partition) => decide (partition < cutoff)
  | _ => false

def DatedKeys (table : DigitTable) (bucket : Dict String S3Put) : Prop :=
  ∀ k x, bucket.get? k = some x →
    ∃ wall, x.partition = some wall ∧ extractPartitionDate table k = .ok (some (midnight wall))

theorem dated_iff (table : DigitTable) (hfiled : ∀ k x, bucket.get? k = some x → FiledPut rt k x) :
    DatedKeys table bucket ↔ ∀ k x, bucket.get? k = some x → ∀ wall, x.partition = some wall →
      1970 ≤ (utcDate wall).1 := by
  apply forall_congr'
  intro k
  apply forall_congr'
  intro x
  apply forall_congr'
  intro hx
  obtain ⟨c, ev, rest, wall, hbatch, hpartition, hkey, hwall⟩ := hfiled k x hx
  rw [hpartition]
  constructor
  · rintro ⟨w, hw, hextract⟩ v hv
    cases hw
    cases hv
    exact (extract_iff hkey hwall).1 hextract
  · intro h
    exact ⟨wall, rfl, (extract_iff hkey hwall).2 (h wall rfl)⟩

def staleOf (table : DigitTable) (cutoff : Nat) (pages : List ListingPage) : List String :=
  ((pages.flatMap (·.contents)).map Prod.fst).filter (expiredKey table cutoff)

theorem mem_staleOf (cutoff : Nat) (hlists : Lists client bucket pages)
    (hdated : DatedKeys table bucket) (k : String) :
    k ∈ staleOf table cutoff pages ↔ ∃ x wall, bucket.get? k = some x ∧
      (client.keyPrefix ++ "/org=").toList <+: k.toList ∧ x.partition = some wall ∧
        midnight wall < cutoff := by
  rw [staleOf, List.mem_filter, hlists.keys]
  constructor
  · rintro ⟨⟨hsome, hpath⟩, hexpired⟩
    obtain ⟨x, hx⟩ := Option.ne_none_iff_exists'.1 hsome
    obtain ⟨wall, hwall, hextract⟩ := hdated k x hx
    rw [expiredKey, hextract] at hexpired
    exact ⟨x, wall, hx, hpath, hwall, of_decide_eq_true hexpired⟩
  · rintro ⟨x, wall, hx, hpath, hwall, hlt⟩
    obtain ⟨w, hw, hextract⟩ := hdated k x hx
    rw [hwall] at hw
    cases hw
    rw [expiredKey, hextract, hx]
    exact ⟨⟨Option.some_ne_none x, hpath⟩, decide_eq_true hlt⟩

theorem pruneExpired_ok (refused : String → Bool) {days : Int} (hdays : 1 ≤ days)
    (hspan : days.toNat * Py.dayMicros ≤ now) (hlists : Lists client bucket pages)
    (hdated : DatedKeys table bucket) :
    ∃ left, pruneExpired table refused days now pages bucket = .ok (some
        ((staleOf table (now - days.toNat * Py.dayMicros) pages).length, left)) ∧
      ∀ k, left.get? k = if k ∈ staleOf table (now - days.toNat * Py.dayMicros) pages ∧
        refused k = false then none else bucket.get? k := by
  have hexpired : ∀ e ∈ pages.flatMap (·.contents), isExpired table e.1 e.2
      (now - days.toNat * Py.dayMicros) =
        .ok (expiredKey table (now - days.toNat * Py.dayMicros) e.1) := by
    intro e he
    obtain ⟨x, hx⟩ := Option.ne_none_iff_exists'.1
      ((hlists.keys e.1).1 (List.mem_map_of_mem he)).1
    obtain ⟨wall, -, hextract⟩ := hdated e.1 x hx
    rw [isExpired, expiredKey, hextract]
    rfl
  have hcutoff : days * Py.dayMicros ≤ now.val := by
    have hcast : (days.toNat : Int) = days := Int.toNat_of_nonneg (by omega)
    rw [← hcast]
    exact_mod_cast hspan
  have hrun := prunePages_ok refused hlists.chained hexpired 0 bucket
  rw [Nat.zero_add] at hrun
  rw [pruneExpired, if_neg (by omega), if_pos hcutoff]
  exact hrun

theorem pruneExpired_overflow {days : Int} (hdays : 1 ≤ days)
    (hspan : ¬ days.toNat * Py.dayMicros ≤ now) :
    pruneExpired table refused days now pages bucket = .error .overflowError := by
  have hcutoff : ¬ days * Py.dayMicros ≤ now.val := by
    intro h
    have hcast : (days.toNat : Int) = days := Int.toNat_of_nonneg (by omega)
    rw [← hcast] at h
    exact hspan (by exact_mod_cast h)
  rw [pruneExpired, if_neg (by omega), if_neg hcutoff]

/-- What is returned is the number of keys that are gone exactly where none was refused. -/
theorem counted_iff {stale : List String} {left : Dict String S3Put} (hnodup : stale.Nodup)
    (hstale : ∀ k ∈ stale, bucket.get? k ≠ none)
    (hleft : ∀ k, left.get? k = if k ∈ stale ∧ refused k = false then none else bucket.get? k) :
    stale.length = (bucket.keys \ left.keys).card ↔ ∀ k ∈ stale, refused k = false := by
  have hgone : bucket.keys \ left.keys = (stale.filter (fun k => !refused k)).toFinset := by
    ext k
    rw [Finset.mem_sdiff, Dict.mem_keys, Dict.mem_keys, List.mem_toFinset, List.mem_filter, hleft]
    have hsome := hstale k
    split_ifs with h
    · simp [h, hsome h.1]
    · simp only [Bool.not_eq_true', not_not]
      tauto
  rw [hgone, List.toFinset_card_of_nodup (hnodup.filter _), eq_comm,
    List.length_filter_eq_length_iff]
  simp

/-- A retention does what it is to exactly where its cutoff is a date, every object is of 1970 or
later, and nothing whose day began before the cutoff is refused or holds what came after it. -/
theorem prune_expired_iff (rt : Runtime) (table : DigitTable) (puts : List (String × S3Put))
    (client : S3Client) (refused : String → Bool) (reached : Obj → Nat) {days : Int}
    (hdays : 1 ≤ days) (now : UtcClock) {pages : List ListingPage}
    (hlists : Lists client (coldStore rt puts) pages) :
    (∃ deleted left, pruneExpired table refused days now pages (coldStore rt puts) =
        .ok (some (deleted, left)) ∧
      Retained table client reached (days.toNat * Py.dayMicros) now (coldStore rt puts) left
        deleted) ↔
      Prunable client refused reached (days.toNat * Py.dayMicros) now (coldStore rt puts) := by
  have hfiled := coldStore_filed rt puts
  have hdatedIff := dated_iff table hfiled
  constructor
  · rintro ⟨deleted, left, hrun, h⟩
    have hspan : days.toNat * Py.dayMicros ≤ now := by
      by_contra hspan
      rw [pruneExpired_overflow hdays hspan] at hrun
      cases hrun
    have hdated : DatedKeys table (coldStore rt puts) := h.dated
    obtain ⟨left', hrun', hleft⟩ := pruneExpired_ok refused hdays hspan hlists hdated
    rw [hrun'] at hrun
    cases hrun
    have hmem := mem_staleOf (now - days.toNat * Py.dayMicros) hlists hdated
    have hkept := (counted_iff (hlists.nodup.filter _) (fun k hk => by
      obtain ⟨x, -, hx, -⟩ := (hmem k).1 hk
      rw [hx]
      exact Option.some_ne_none x) hleft).1 h.counted
    refine ⟨hspan, hdatedIff.1 hdated, fun k x hx hpath wall hwall hlt => ?_⟩
    have hstale := (hmem k).2 ⟨x, wall, hx, hpath, hwall, by omega⟩
    have hrefused := hkept k hstale
    exact ⟨hrefused, h.notEarly k x hx (by rw [hleft, if_pos ⟨hstale, hrefused⟩])⟩
  · intro h
    have hdated : DatedKeys table (coldStore rt puts) := hdatedIff.2 h.recent
    obtain ⟨left, hrun, hleft⟩ := pruneExpired_ok refused hdays h.cutoff hlists hdated
    have hmem := mem_staleOf (now - days.toNat * Py.dayMicros) hlists hdated
    have hspan := h.cutoff
    have hdue : ∀ k ∈ staleOf table (now - days.toNat * Py.dayMicros) pages, ∀ x,
        (coldStore rt puts).get? k = some x →
        refused k = false ∧ ∀ ev ∈ x.batch, reached ev + days.toNat * Py.dayMicros ≤ now := by
      intro k hk x hx
      obtain ⟨y, wall, hy, hpath, hwall, hlt⟩ := (hmem k).1 hk
      rw [hx] at hy
      cases hy
      exact h.due k x hx hpath wall hwall (by omega)
    refine ⟨_, left, hrun, ?_, ?_, ?_, hdated⟩
    · intro k x hx hgone
      rw [hleft] at hgone
      split_ifs at hgone with hstale
      · exact (hdue k hstale.1 x hx).2
      · rw [hx] at hgone
        cases hgone
    · intro k x hx hpath wall hwall hended
      have hday : 0 < Py.dayMicros := by decide
      have hstale := (hmem k).2 ⟨x, wall, hx, hpath, hwall, by omega⟩
      rw [hleft, if_pos ⟨hstale, (hdue k hstale x hx).1⟩]
    · have hsome : ∀ k ∈ staleOf table (now - days.toNat * Py.dayMicros) pages,
          ∃ x, (coldStore rt puts).get? k = some x := fun k hk => by
        obtain ⟨x, -, hx, -⟩ := (hmem k).1 hk
        exact ⟨x, hx⟩
      apply (counted_iff (hlists.nodup.filter _) (fun k hk => Option.ne_none_iff_exists'.2
        (hsome k hk)) hleft).2
      intro k hk
      obtain ⟨x, hx⟩ := hsome k hk
      exact (hdue k hk x hx).1

end Retention

def asciiDigits : DigitTable where
  isDigit := Char.isDigit
  digit c := if c.isDigit then some (c.toNat - '0'.toNat) else none
  isDigit_ascii _ h := h
  digit_ascii _ h := if_pos h

/-- An object with one event, received two seconds before midnight. -/
def latePut : String × S3Put :=
  ("cold",
    { gzip := true
      hasCredentials := true
      batch := [[("_centralops", .obj [("event_id", .str "a"),
        ("received_at", .str "2026-01-05T23:59:58Z")])]]
      clock := beforeMidnight
      reply := .done
      landed := true })

def lateKey : String :=
  "cold/org=global/2026/01/05/3f786850e387550fdab836ed7e6dc881de23001b.ndjson.gz"

def latePages : List ListingPage := [⟨[(lateKey, none)], false, none⟩]

theorem lateStore :
    coldStore sha1Runtime.toRuntime [latePut] = Dict.empty.set lateKey latePut.2 := by
  have hsend : S3Client.sendBatch sha1Runtime.toRuntime ⟨"cold", true, true⟩ latePut.2.batch
      beforeMidnight .done = .ok ({ accepted := 1 }, some lateKey) := by
    decide +kernel
  exact putObject_done hsend rfl

theorem lateStore_eq (h : (coldStore sha1Runtime.toRuntime [latePut]).get? k = some x) :
    x = latePut.2 := by
  rw [lateStore] at h
  by_cases hk : k = lateKey
  · subst hk
    rw [Dict.get?_set_self] at h
    exact (Option.some.inj h).symm
  · rw [Dict.get?_set_ne _ hk] at h
    cases h

theorem late_partition : latePut.2.partition = some (739621 * Py.dayMicros - 2000000) := by
  decide +kernel

theorem late_lists : Lists ⟨"cold", true, true⟩ (coldStore sha1Runtime.toRuntime [latePut])
    latePages := by
  refine ⟨rfl, by decide, fun k => ?_⟩
  rw [lateStore, latePages]
  by_cases hk : k = lateKey
  · subst hk
    rw [Dict.get?_set_self]
    exact ⟨fun _ => ⟨Option.some_ne_none _, by decide⟩, fun _ => by simp⟩
  · rw [Dict.get?_set_ne _ hk]
    exact ⟨fun h => absurd (by simpa using h) hk, fun h => absurd rfl h.1⟩

/-- The seconds after midnight, so many days after the event was received. -/
def secondsLater (day : Fin 2) : UtcClock := ⟨(739621 + day) * Py.dayMicros + 3000000, by
  revert day
  decide⟩

def lateReached (_ : Obj) : Nat := beforeMidnight - 1000000

theorem prune_expired_iff_late :
    ∃ deleted left, pruneExpired asciiDigits (fun _ => false) 1 (secondsLater 1) latePages
        (coldStore sha1Runtime.toRuntime [latePut]) = .ok (some (deleted, left)) ∧
      Retained asciiDigits ⟨"cold", true, true⟩ lateReached (Int.toNat 1 * Py.dayMicros)
        (secondsLater 1) (coldStore sha1Runtime.toRuntime [latePut]) left deleted := by
  apply (prune_expired_iff sha1Runtime.toRuntime asciiDigits [latePut] ⟨"cold", true, true⟩
    (fun _ => false) lateReached (by decide) (secondsLater 1) late_lists).2
  refine ⟨by decide, fun k x hx wall hwall => ?_, fun k x hx _ wall _ _ => ⟨rfl, fun ev _ => ?_⟩⟩
  · rw [lateStore_eq hx, late_partition] at hwall
    cases hwall
    decide +kernel
  · change lateReached [] + 1 * Py.dayMicros ≤ _
    decide

/-- Five seconds after it was received, an event is removed for being a day old. -/
theorem late_event_pruned : ¬ ∀ (rt : Runtime) (table : DigitTable) (puts : List (String × S3Put))
    (client : S3Client) (refused : String → Bool) (reached : Obj → Nat) (days : Int),
    1 ≤ days → ∀ (now : UtcClock) (pages : List ListingPage),
    Lists client (coldStore rt puts) pages →
    ∃ deleted left, pruneExpired table refused days now pages (coldStore rt puts) =
        .ok (some (deleted, left)) ∧
      Retained table client reached (days.toNat * Py.dayMicros) now (coldStore rt puts) left
        deleted := by
  intro h
  obtain ⟨deleted, left, hrun, hretained⟩ := h sha1Runtime.toRuntime asciiDigits [latePut]
    ⟨"cold", true, true⟩ (fun _ => false) lateReached 1 (by decide) (secondsLater 0) latePages
    late_lists
  have hspan : Int.toNat 1 * Py.dayMicros ≤ secondsLater 0 := by decide
  obtain ⟨left', hrun', hleft⟩ := pruneExpired_ok _ (by decide) hspan late_lists hretained.dated
  rw [hrun'] at hrun
  cases hrun
  have hstored : (coldStore sha1Runtime.toRuntime [latePut]).get? lateKey = some latePut.2 := by
    rw [lateStore, Dict.get?_set_self]
  have hgone : left.get? lateKey = none := by
    rw [hleft, if_pos]
    apply And.intro _ rfl
    exact (mem_staleOf _ late_lists hretained.dated lateKey).2
      ⟨latePut.2, _, hstored, by decide, late_partition, by decide⟩
  have hreached := hretained.notEarly lateKey latePut.2 hstored hgone _ List.mem_cons_self
  exact absurd hreached (by decide)

end CentralOps
