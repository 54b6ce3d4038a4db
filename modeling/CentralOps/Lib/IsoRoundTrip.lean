import CentralOps.Lib.Calendar
import Mathlib.Algebra.Order.Ring.Nat
import Mathlib.Tactic.IntervalCases

/-! A time of UTC that is written with seconds is read back. -/

namespace Py
set_option autoImplicit true

def digit (k : Nat) : CodePoint := Fin.ofNat 1114112 (48 + k)

theorem ch_digitChar (k : Nat) (h : k < 10) : ch k.digitChar = digit k := by
  have hall : ∀ k : Fin 10, ch k.val.digitChar = digit k := by decide
  exact hall ⟨k, h⟩

theorem text_toString (n : Nat) : text (toString n) = (Nat.toDigits 10 n).map ch := by
  rw [text, Nat.toString_eq_ofList_toDigits, String.toList_ofList]

theorem padded_last (width n : Nat) (hpos : 0 < width) :
    padded (width + 1) n = padded width (n / 10) ++ [digit (n % 10)] := by
  have hdigit : ch (n % 10).digitChar = digit (n % 10) :=
    ch_digitChar _ (Nat.mod_lt n (by decide))
  simp only [padded, text_toString, List.length_map]
  rw [Nat.toDigits_eq_if (by decide) (n := n)]
  by_cases hlt : n < 10
  · have hzero : n / 10 = 0 := Nat.div_eq_of_lt hlt
    have hmod : n % 10 = n := Nat.mod_eq_of_lt hlt
    obtain ⟨width, rfl⟩ := Nat.exists_eq_succ_of_ne_zero hpos.ne'
    rw [hmod] at hdigit
    rw [if_pos hlt, hzero, hmod, Nat.toDigits_zero, List.map_singleton, hdigit, List.map_singleton,
      List.length_singleton, List.length_singleton, Nat.add_sub_cancel, Nat.succ_sub_one,
      List.replicate_succ']
  · rw [if_neg hlt, List.length_append, List.length_singleton, Nat.add_sub_add_right,
      List.map_append, List.map_singleton, hdigit, List.append_assoc]

theorem padded_one (n : Nat) (h : n < 10) : padded 1 n = [digit n] := by
  simp only [padded, text_toString, List.length_map]
  rw [Nat.toDigits_of_lt_base h, List.map_singleton, ch_digitChar n h]
  rfl

theorem padded_two (n : Nat) (h : n < 100) : padded 2 n = [digit (n / 10), digit (n % 10)] := by
  rw [padded_last 1 n Nat.one_pos, padded_one (n / 10) (by omega)]
  rfl

theorem padded_four (n : Nat) (h : n < 10000) :
    padded 4 n = [digit (n / 1000), digit (n / 100 % 10), digit (n / 10 % 10), digit (n % 10)] := by
  have hthird : n / 10 / 10 / 10 = n / 1000 := by omega
  have hsecond : n / 10 / 10 % 10 = n / 100 % 10 := by omega
  rw [padded_last 3 n (by decide), padded_last 2 (n / 10) (by decide), padded_two _ (by omega),
    hthird, hsecond]
  rfl

theorem daysInMonth_eq (year month : Nat) :
    daysInMonth year month = daysInMonth (if isLeap year then 4 else 1) month := by
  have hfour : isLeap 4 = true := by decide
  have hone : isLeap 1 = false := by decide
  cases hleap : isLeap year with
  | false => simp only [daysInMonth, hleap, Bool.false_eq_true, if_false, hone]
  | true => simp only [daysInMonth, hleap, if_true, hfour]

theorem daysBeforeMonth_eq (year month : Nat) :
    daysBeforeMonth year month = daysBeforeMonth (if isLeap year then 4 else 1) month := by
  rw [daysBeforeMonth, daysBeforeMonth]
  exact congrArg List.sum (List.map_congr_left fun m _ => daysInMonth_eq year m)

def monthOf (year n : Nat) : Nat :=
  (List.range 13).countP (fun m => 1 ≤ m && daysBeforeMonth year m ≤ n)

theorem monthOf_spec (year n : Nat) (h : n < 365) :
    1 ≤ monthOf year n ∧ monthOf year n ≤ 12 ∧ daysBeforeMonth year (monthOf year n) ≤ n ∧
      n - daysBeforeMonth year (monthOf year n) + 1 ≤ daysInMonth year (monthOf year n) := by
  have hall : ∀ leap : Bool, ∀ n : Fin 365,
      let year := if leap then 4 else 1
      1 ≤ monthOf year n ∧ monthOf year n ≤ 12 ∧ daysBeforeMonth year (monthOf year n) ≤ n ∧
        n - daysBeforeMonth year (monthOf year n) + 1 ≤ daysInMonth year (monthOf year n) := by
    decide +kernel
  have hmonth : monthOf year n = monthOf (if isLeap year then 4 else 1) n := by
    rw [monthOf, monthOf]
    simp only [daysBeforeMonth_eq year]
  rw [hmonth, daysBeforeMonth_eq year, daysInMonth_eq year]
  exact hall (isLeap year) ⟨n, h⟩

theorem isLeap_iff (year : Nat) :
    isLeap year = true ↔ year % 4 = 0 ∧ (year % 100 ≠ 0 ∨ year % 400 = 0) := by
  simp [isLeap]

theorem daysBefore (n400 n100 n4 n1 : Nat) (hcentury : n100 ≤ 3) (hfour : n4 ≤ 24) (hyear : n1 ≤ 3) :
    let y := n400 * 400 + n100 * 100 + n4 * 4 + n1
    y * 365 + y / 4 - y / 100 + y / 400 = 146097 * n400 + 36524 * n100 + 1461 * n4 + 365 * n1 := by
  intro y
  have hquarters : y / 4 = 100 * n400 + 25 * n100 + n4 := by omega
  have hcenturies : y / 100 = 4 * n400 + n100 := by omega
  have hcycles : y / 400 = n400 := by omega
  omega

theorem lastDay_spec (y n : Nat) (hfour : y % 4 = 0) (hleap : y % 100 ≠ 0 ∨ y % 400 = 0)
    (hlow : 1 ≤ y) (hhigh : y ≤ 9999)
    (hn : (y - 1) * 365 + (y - 1) / 4 - (y - 1) / 100 + (y - 1) / 400 + 366 = n) :
    DateTime.validDate y 12 31 = true ∧ toOrdinal y 12 31 = n := by
  have hyear : isLeap y = true := (isLeap_iff y).2 ⟨hfour, hleap⟩
  have hbefore : daysBeforeMonth y 12 = 335 := by
    rw [daysBeforeMonth_eq, hyear]
    decide
  have hmonth : daysInMonth y 12 = 31 := by
    rw [daysInMonth_eq, hyear]
    decide
  constructor
  · simp only [DateTime.validDate, hmonth, Bool.and_eq_true, decide_eq_true_eq]
    omega
  · rw [toOrdinal, hbefore]
    exact hn

theorem dayOf_spec (y n day : Nat) (hlow : 1 ≤ y) (hhigh : y ≤ 9999) (hday : day < 365)
    (hn : (y - 1) * 365 + (y - 1) / 4 - (y - 1) / 100 + (y - 1) / 400 + day + 1 = n) :
    DateTime.validDate y (monthOf y day) (day - daysBeforeMonth y (monthOf y day) + 1) = true ∧
      toOrdinal y (monthOf y day) (day - daysBeforeMonth y (monthOf y day) + 1) = n := by
  obtain ⟨hfirst, htwelve, hbefore, hinside⟩ := monthOf_spec y day hday
  constructor
  · simp only [DateTime.validDate, Bool.and_eq_true, decide_eq_true_eq]
    omega
  · rw [toOrdinal]
    omega

structure OrdinalParts (n n400 n100 n4 n1 day : Nat) : Prop where
  sum : n = 146097 * n400 + 36524 * n100 + 1461 * n4 + 365 * n1 + day
  century : n100 ≤ 4
  four : n4 ≤ 24
  year : n1 ≤ 4
  inYear : day < 365
  leap : n1 = 4 → n100 ≤ 3 ∧ n4 ≤ 23 ∧ day = 0
  cycle : n100 = 4 → n4 = 0 ∧ n1 = 0 ∧ day = 0

theorem ordinalParts (n : Nat) : OrdinalParts n (n / 146097) (n % 146097 / 36524)
    (n % 146097 % 36524 / 1461) (n % 146097 % 36524 % 1461 / 365)
    (n % 146097 % 36524 % 1461 % 365) := by
  have hcycle := Nat.div_add_mod n 146097
  have hcycle' := Nat.mod_lt n (show 146097 > 0 by decide)
  generalize n % 146097 = m at hcycle hcycle'
  have hcentury := Nat.div_add_mod m 36524
  have hcentury' := Nat.mod_lt m (show 36524 > 0 by decide)
  generalize m % 36524 = k at hcentury hcentury'
  have hfour := Nat.div_add_mod k 1461
  have hfour' := Nat.mod_lt k (show 1461 > 0 by decide)
  generalize k % 1461 = j at hfour hfour'
  have hyear := Nat.div_add_mod j 365
  have hyear' := Nat.mod_lt j (show 365 > 0 by decide)
  generalize n / 146097 = n400 at *
  generalize m / 36524 = n100 at *
  generalize k / 1461 = n4 at *
  generalize j / 365 = n1 at *
  generalize j % 365 = day at *
  constructor
  all_goals omega

theorem ofOrdinal_spec (n : Nat) (hlow : 1 ≤ n) (hhigh : n ≤ 3652059) :
    DateTime.validDate (ofOrdinal n).1 (ofOrdinal n).2.1 (ofOrdinal n).2.2 = true ∧
      toOrdinal (ofOrdinal n).1 (ofOrdinal n).2.1 (ofOrdinal n).2.2 = n := by
  have hparts := ordinalParts (n - 1)
  have hdate : ofOrdinal n = (let n400 := (n - 1) / 146097
      let n100 := (n - 1) % 146097 / 36524
      let n4 := (n - 1) % 146097 % 36524 / 1461
      let n1 := (n - 1) % 146097 % 36524 % 1461 / 365
      let day := (n - 1) % 146097 % 36524 % 1461 % 365
      let y := n400 * 400 + 1 + n100 * 100 + n4 * 4 + n1
      if n1 = 4 ∨ n100 = 4 then (y - 1, 12, 31)
      else (y, monthOf y day, day - daysBeforeMonth y (monthOf y day) + 1)) := rfl
  rw [hdate]
  clear hdate
  generalize (n - 1) / 146097 = n400 at *
  generalize (n - 1) % 146097 / 36524 = n100 at *
  generalize (n - 1) % 146097 % 36524 / 1461 = n4 at *
  generalize (n - 1) % 146097 % 36524 % 1461 / 365 = n1 at *
  generalize (n - 1) % 146097 % 36524 % 1461 % 365 = day at *
  obtain ⟨hsum, hcentury, hfour, hyear, hday, hleap, hcycle⟩ := hparts
  dsimp only
  by_cases hlast : n1 = 4 ∨ n100 = 4
  · rw [if_pos hlast]
    obtain rfl | rfl := hlast
    · have hyears := daysBefore n400 n100 n4 3 (by omega) (by omega) (by omega)
      have hprevious : n400 * 400 + 1 + n100 * 100 + n4 * 4 + 4 - 1 - 1 =
          n400 * 400 + n100 * 100 + n4 * 4 + 3 := by omega
      apply lastDay_spec
      · omega
      · omega
      · omega
      · omega
      · rw [hprevious, hyears]
        omega
    · have hyears := daysBefore n400 3 24 3 (by omega) (by omega) (by omega)
      have hprevious : n400 * 400 + 1 + 4 * 100 + n4 * 4 + n1 - 1 - 1 =
          n400 * 400 + 3 * 100 + 24 * 4 + 3 := by omega
      apply lastDay_spec
      · omega
      · omega
      · omega
      · omega
      · rw [hprevious, hyears]
        omega
  · rw [if_neg hlast]
    have hyears := daysBefore n400 n100 n4 n1 (by omega) (by omega) (by omega)
    have hprevious : n400 * 400 + 1 + n100 * 100 + n4 * 4 + n1 - 1 =
        n400 * 400 + n100 * 100 + n4 * 4 + n1 := by omega
    apply dayOf_spec
    · omega
    · omega
    · exact hday
    · rw [hprevious, hyears]
      omega

def digitByte (k : Nat) : UInt8 := UInt8.ofNat (48 + k)

theorem digitByte_spec (k : Nat) (h : k < 10) :
    Iso.isDigit (digitByte k) = true ∧ (digitByte k).toNat - 48 = k ∧ digitByte k ≠ 43 ∧
      digitByte k ≠ 45 ∧ digitByte k ≠ 87 ∧ digitByte k ≠ 90 ∧
        encodeChar (digit k) = some [digitByte k] := by
  have hall : ∀ k : Fin 10, Iso.isDigit (digitByte k) = true ∧ (digitByte k).toNat - 48 = k ∧
      digitByte k ≠ 43 ∧ digitByte k ≠ 45 ∧ digitByte k ≠ 87 ∧ digitByte k ≠ 90 ∧
        encodeChar (digit k) = some [digitByte k] := by decide
  exact hall ⟨k, h⟩

theorem digits_two (a b : Nat) (ha : a < 10) (hb : b < 10) (rest : List UInt8) :
    Iso.digits (digitByte a :: digitByte b :: rest) 2 = some (10 * a + b, rest) := by
  obtain ⟨hda, hva, -⟩ := digitByte_spec a ha
  obtain ⟨hdb, hvb, -⟩ := digitByte_spec b hb
  simp [Iso.digits, hda, hdb, hva, hvb]

theorem digits_four (a b c d : Nat) (ha : a < 10) (hb : b < 10) (hc : c < 10) (hd : d < 10)
    (rest : List UInt8) :
    Iso.digits (digitByte a :: digitByte b :: digitByte c :: digitByte d :: rest) 4 =
      some (10 * (10 * (10 * a + b) + c) + d, rest) := by
  obtain ⟨hda, hva, -⟩ := digitByte_spec a ha
  obtain ⟨hdb, hvb, -⟩ := digitByte_spec b hb
  obtain ⟨hdc, hvc, -⟩ := digitByte_spec c hc
  obtain ⟨hdd, hvd, -⟩ := digitByte_spec d hd
  simp [Iso.digits, hda, hdb, hdc, hdd, hva, hvb, hvc, hvd]

def twoBytes (n : Nat) (rest : List UInt8) : List UInt8 :=
  digitByte (n / 10) :: digitByte (n % 10) :: rest

def fourBytes (n : Nat) (rest : List UInt8) : List UInt8 :=
  digitByte (n / 1000) :: digitByte (n / 100 % 10) :: digitByte (n / 10 % 10) ::
    digitByte (n % 10) :: rest

theorem digits_twoBytes (n : Nat) (h : n < 100) (rest : List UInt8) :
    Iso.digits (twoBytes n rest) 2 = some (n, rest) := by
  rw [twoBytes, digits_two _ _ (by omega) (by omega)]
  exact congrArg (fun v => some (v, rest)) (by omega)

theorem digits_fourBytes (n : Nat) (h : n < 10000) (rest : List UInt8) :
    Iso.digits (fourBytes n rest) 4 = some (n, rest) := by
  rw [fourBytes, digits_four _ _ _ _ (by omega) (by omega) (by omega) (by omega)]
  exact congrArg (fun v => some (v, rest)) (by omega)

theorem byteAt_twoBytes_ne_week (n : Nat) (h : n < 100) (rest : List UInt8) :
    Iso.byteAt (twoBytes n rest) 0 ≠ 87 :=
  (digitByte_spec (n / 10) (by omega)).2.2.2.2.1

/-- `year-month-day` is read. -/
theorem date_bytes (year month day : Nat) (hyear : year < 10000) (hmonth : month < 100)
    (hday : day < 100) (hvalid : DateTime.validDate year month day = true) (rest : List UInt8) :
    Iso.date (fourBytes year (45 :: twoBytes month (45 :: twoBytes day rest))) 10 =
      some (toOrdinal year month day) := by
  have hweek := byteAt_twoBytes_ne_week month hmonth (45 :: twoBytes day rest)
  have hdash : ∀ l : List UInt8, Iso.byteAt (45 :: l) 0 = 45 := fun _ => rfl
  rw [Iso.date, digits_fourBytes year hyear]
  simp [hdash, hweek, digits_twoBytes month hmonth, digits_twoBytes day hday, hvalid]

theorem clock_bytes (hour minute second : Nat) (hhour : hour < 100) (hminute : minute < 100)
    (hsecond : second < 100) (rest : List UInt8) :
    Iso.clock (twoBytes hour (58 :: twoBytes minute (58 :: twoBytes second (43 :: rest)))) 8 =
      some ⟨hour, minute, second, 0, true⟩ := by
  have hcolon : ∀ l : List UInt8, Iso.byteAt (58 :: l) 0 = 58 := fun _ => rfl
  have hplus : ∀ l : List UInt8, Iso.byteAt (43 :: l) 0 = 43 := fun _ => rfl
  simp [Iso.clock, Iso.fields, digits_twoBytes hour hhour, digits_twoBytes minute hminute,
    digits_twoBytes second hsecond, hcolon, hplus, Iso.Clock.put]

/-- `hour:minute:second+00:00` is read. -/
theorem time_bytes (hour minute second : Nat) (hhour : hour < 100) (hminute : minute < 100)
    (hsecond : second < 100) :
    Iso.time (twoBytes hour (58 :: twoBytes minute (58 :: twoBytes second
      [43, 48, 48, 58, 48, 48]))) = some (⟨hour, minute, second, 0, true⟩, some 0) := by
  have hzone : ((twoBytes hour (58 :: twoBytes minute (58 :: twoBytes second
      [43, 48, 48, 58, 48, 48]))).takeWhile (fun b => b ≠ 43 && b ≠ 45 && b ≠ 90)).length = 8 := by
    have hfree : ∀ k, k < 10 → ∀ l : List UInt8,
        (digitByte k :: l).takeWhile (fun b => b ≠ 43 && b ≠ 45 && b ≠ 90) =
          digitByte k :: l.takeWhile (fun b => b ≠ 43 && b ≠ 45 && b ≠ 90) := by
      intro k hk l
      obtain ⟨-, -, hplus, hminus, -, hz, -⟩ := digitByte_spec k hk
      exact List.takeWhile_cons_of_pos (by simp [hplus, hminus, hz])
    have hcolon : ∀ l : List UInt8,
        ((58 : UInt8) :: l).takeWhile (fun b => b ≠ 43 && b ≠ 45 && b ≠ 90) =
          58 :: l.takeWhile (fun b => b ≠ 43 && b ≠ 45 && b ≠ 90) :=
      fun l => List.takeWhile_cons_of_pos (by decide)
    simp only [twoBytes]
    rw [hfree _ (by omega), hfree _ (by omega), hcolon, hfree _ (by omega), hfree _ (by omega),
      hcolon, hfree _ (by omega), hfree _ (by omega)]
    rfl
  have hclock := clock_bytes hour minute second hhour hminute hsecond [48, 48, 58, 48, 48]
  have hutc : Iso.clock [48, 48, 58, 48, 48] 5 = some ⟨0, 0, 0, 0, false⟩ := rfl
  rw [Iso.time]
  simp only [hzone, hclock]
  rw [twoBytes, twoBytes, twoBytes]
  simp [hutc, dayMicros]

def twoChars (n : Nat) (rest : Text) : Text := digit (n / 10) :: digit (n % 10) :: rest

def fourChars (n : Nat) (rest : Text) : Text :=
  digit (n / 1000) :: digit (n / 100 % 10) :: digit (n / 10 % 10) :: digit (n % 10) :: rest

theorem encode_cons {c : CodePoint} {b : UInt8} {s : Text} {bs : List UInt8}
    (hc : encodeChar c = some [b]) (hs : encode s = some bs) : encode (c :: s) = some (b :: bs) := by
  rw [encode] at hs ⊢
  obtain ⟨parts, hparts, rfl⟩ := Option.map_eq_some_iff.1 hs
  rw [List.mapM_cons, hc, hparts]
  rfl

theorem encode_digit (k : Nat) (h : k < 10) {s : Text} {bs : List UInt8}
    (hs : encode s = some bs) : encode (digit k :: s) = some (digitByte k :: bs) :=
  encode_cons (digitByte_spec k h).2.2.2.2.2.2 hs

theorem encode_twoChars (n : Nat) (h : n < 100) {s : Text} {bs : List UInt8}
    (hs : encode s = some bs) : encode (twoChars n s) = some (twoBytes n bs) :=
  encode_digit _ (by omega) (encode_digit _ (by omega) hs)

theorem encode_fourChars (n : Nat) (h : n < 10000) {s : Text} {bs : List UInt8}
    (hs : encode s = some bs) : encode (fourChars n s) = some (fourBytes n bs) := by
  apply encode_digit _ (by omega)
  apply encode_digit _ (by omega)
  apply encode_digit _ (by omega)
  exact encode_digit _ (by omega) hs

/-- The characters of a time: what stands behind its seconds is left open. -/
def stampChars (year month day hour minute second : Nat) (rest : Text) : Text :=
  fourChars year (ch '-' :: twoChars month (ch '-' :: twoChars day (ch 'T' :: twoChars hour
    (ch ':' :: twoChars minute (ch ':' :: twoChars second rest)))))

theorem encode_stamp (year month day hour minute second : Nat) (hyear : year < 10000)
    (hmonth : month < 100) (hday : day < 100) (hhour : hour < 100) (hminute : minute < 100)
    (hsecond : second < 100) {rest : Text} {bs : List UInt8} (hrest : encode rest = some bs) :
    encode (stampChars year month day hour minute second rest) =
      some (fourBytes year (45 :: twoBytes month (45 :: twoBytes day (84 :: twoBytes hour
        (58 :: twoBytes minute (58 :: twoBytes second bs)))))) := by
  apply encode_fourChars year hyear
  apply encode_cons rfl
  apply encode_twoChars month hmonth
  apply encode_cons rfl
  apply encode_twoChars day hday
  apply encode_cons rfl
  apply encode_twoChars hour hhour
  apply encode_cons rfl
  apply encode_twoChars minute hminute
  apply encode_cons rfl
  exact encode_twoChars second hsecond hrest

theorem daysInMonth_le (year month : Nat) : daysInMonth year month ≤ 31 := by
  have hall : ∀ n ∈ [0, 31, 28, 31, 30, 31, 30, 31, 31, 30, 31, 30, 31], n ≤ 31 := by decide
  rw [daysInMonth]
  split
  · decide
  · cases hentry : [0, 31, 28, 31, 30, 31, 30, 31, 31, 30, 31, 30, 31][month]? with
    | none => exact Nat.zero_le 31
    | some n => exact hall n (List.mem_of_getElem? hentry)

theorem isSurrogate_digit (k : Nat) (h : k < 10) : isSurrogate (digit k) = false := by
  have hall : ∀ k : Fin 10, isSurrogate (digit k) = false := by decide
  exact hall ⟨k, h⟩

theorem sanitize_stamp (year month day hour minute second : Nat) (hday : day < 100)
    (rest : Text) : Iso.sanitize (stampChars year month day hour minute second rest) =
      stampChars year month day hour minute second rest := by
  have hseven : (stampChars year month day hour minute second rest)[7]? = some (ch '-') := rfl
  have height : (stampChars year month day hour minute second rest)[8]? =
      some (digit (day / 10)) := rfl
  have hten : (stampChars year month day hour minute second rest)[10]? = some (ch 'T') := rfl
  have hdash : isSurrogate (ch '-') = false := by decide
  have htime : isSurrogate (ch 'T') = false := by decide
  simp only [Iso.sanitize, List.find?, hseven, height, hten, Option.map_some, Option.getD_some,
    hdash, htime, isSurrogate_digit (day / 10) (by omega)]

/-- A time of UTC is read back. -/
theorem fromIsoFormat_stamp (year month day hour minute second : Nat)
    (hdate : DateTime.validDate year month day = true)
    (htime : DateTime.validTime hour minute second = true) :
    fromIsoFormat (stampChars year month day hour minute second (text "+00:00")) =
      DateTime.ofWall (toOrdinal year month day)
        (((hour * 60 + minute) * 60 + second) * 1000000) (some 0) := by
  have hdate' := hdate
  simp only [DateTime.validDate, Bool.and_eq_true, decide_eq_true_eq] at hdate'
  have htime' := htime
  simp only [DateTime.validTime, Bool.and_eq_true, decide_eq_true_eq] at htime'
  have hmost := daysInMonth_le year month
  obtain ⟨⟨⟨⟨⟨-, hyear⟩, -⟩, hmonth⟩, -⟩, hday⟩ := hdate'
  have hencode := encode_stamp year month day hour minute second (by omega) (by omega) (by omega)
    (by omega) (by omega) (by omega) (show encode (text "+00:00") = some [43, 48, 48, 58, 48, 48] from
      rfl)
  have hlen : ¬ (stampChars year month day hour minute second (text "+00:00")).length < 7 := by
    simp [stampChars, fourChars, twoChars]
  have hread := date_bytes year month day (by omega) (by omega) (by omega) hdate
    (84 :: twoBytes hour (58 :: twoBytes minute (58 :: twoBytes second [43, 48, 48, 58, 48, 48])))
  have hclock := time_bytes hour minute second (by omega) (by omega) (by omega)
  generalize htail : twoBytes hour (58 :: twoBytes minute (58 :: twoBytes second
    [43, 48, 48, 58, 48, 48])) = tail at hencode hread hclock
  generalize hbytes : fourBytes year (45 :: twoBytes month (45 :: twoBytes day (84 :: tail))) =
    bytes at hencode hread
  have hsep : Iso.separator bytes = some 10 := by
    have hdash : Iso.byteAt bytes 4 = 45 := by rw [← hbytes]; rfl
    have hweek : Iso.byteAt bytes 5 ≠ 87 := by
      rw [← hbytes]
      exact byteAt_twoBytes_ne_week month (by omega) (45 :: twoBytes day (84 :: tail))
    have hseven : bytes.length ≠ 7 := by
      rw [← hbytes]
      simp [fourBytes, twoBytes]
    simp only [Iso.separator, hdash, hweek, hseven, if_true, if_false]
  have hdrop : bytes.drop 10 = 84 :: tail := by rw [← hbytes]; rfl
  have hskip : bytes.drop 11 = tail := by rw [← hbytes]; rfl
  have hletter : Iso.charLength 84 = 1 := by decide
  rw [fromIsoFormat, if_neg hlen, sanitize_stamp _ _ _ _ _ _ (by omega), hencode]
  simp [hsep, hread, hdrop, hskip, hclock, htime, hletter]

theorem stampChars_append (year month day hour minute second : Nat) (rest more : Text) :
    stampChars year month day hour minute second rest ++ more =
      stampChars year month day hour minute second (rest ++ more) := rfl

/-- What is written of an instant. -/
structure Stamped (wall year month day hour minute second : Nat) : Prop where
  text : isoSeconds wall = stampChars year month day hour minute second (text "Z")
  date : DateTime.validDate year month day = true
  time : DateTime.validTime hour minute second = true
  ordinal : toOrdinal year month day = wall / dayMicros + 1
  seconds : (hour * 60 + minute) * 60 + second = wall % dayMicros / 1000000

theorem isoSeconds_stamped (wall : Nat) (h : wall < wallLimit) :
    ∃ year month day hour minute second, Stamped wall year month day hour minute second := by
  have hdays : wall / dayMicros + 1 ≤ 3652059 := by
    rw [wallLimit] at h
    exact Nat.div_lt_of_lt_mul (by rwa [Nat.mul_comm] at h)
  obtain ⟨hdate, hordinal⟩ := ofOrdinal_spec _ (Nat.succ_pos _) hdays
  have hseconds : wall % dayMicros / 1000000 < 86400 := by
    have hmod := Nat.mod_lt wall (show dayMicros > 0 by decide)
    rw [show dayMicros = 86400000000 from rfl] at hmod ⊢
    omega
  generalize hday : ofOrdinal (wall / dayMicros + 1) = date at hdate hordinal
  have hdate' := hdate
  simp only [DateTime.validDate, Bool.and_eq_true, decide_eq_true_eq] at hdate'
  have hmost := daysInMonth_le date.1 date.2.1
  refine ⟨date.1, date.2.1, date.2.2, wall % dayMicros / 1000000 / 3600,
    wall % dayMicros / 1000000 / 60 % 60, wall % dayMicros / 1000000 % 60, ?_, hdate, ?_, hordinal, ?_⟩
  · simp only [isoSeconds, hday]
    rw [padded_four _ (by omega), padded_two _ (by omega), padded_two _ (by omega),
      padded_two _ (by omega), padded_two _ (by omega), padded_two _ (by omega)]
    rfl
  · simp only [DateTime.validTime, Bool.and_eq_true, decide_eq_true_eq]
    omega
  · omega

/-- What is written of an instant is read back, to the second. -/
theorem fromIsoFormat_isoSeconds (wall : Nat) (h : wall < wallLimit) :
    ∃ dt, fromIsoFormat ((isoSeconds wall).dropLast ++ text "+00:00") = some dt ∧
      dt.utcWall = some (wall - wall % 1000000) := by
  obtain ⟨year, month, day, hour, minute, second, htext, hdate, htime, hordinal, hseconds⟩ :=
    isoSeconds_stamped wall h
  have hdrop : (isoSeconds wall).dropLast = stampChars year month day hour minute second [] := by
    rw [htext]
    change (stampChars year month day hour minute second [] ++ [ch 'Z']).dropLast = _
    exact List.dropLast_concat
  have hwall : (wall / dayMicros + 1 - 1) * dayMicros + wall % dayMicros / 1000000 * 1000000 =
      wall - wall % 1000000 := by
    rw [show dayMicros = 86400000000 from rfl]
    omega
  have hbound : wall - wall % 1000000 < wallLimit := Nat.lt_of_le_of_lt (Nat.sub_le _ _) h
  rw [hdrop, stampChars_append, List.nil_append,
    fromIsoFormat_stamp year month day hour minute second hdate htime, hordinal, hseconds]
  refine ⟨⟨wall - wall % 1000000, hbound, some 0⟩, ?_, ?_⟩
  · rw [DateTime.ofWall]
    simp only [hwall, Nat.succ_le_succ_iff, Nat.zero_le, true_and, hbound, dif_pos]
  · rw [DateTime.utcWall]
    simp [hbound]

theorem isoSeconds_floor (wall : Nat) : isoSeconds (wall - wall % 1000000) = isoSeconds wall := by
  have hday : (wall - wall % 1000000) / dayMicros = wall / dayMicros := by
    rw [show dayMicros = 86400000000 from rfl]
    omega
  have hseconds : (wall - wall % 1000000) % dayMicros / 1000000 = wall % dayMicros / 1000000 := by
    rw [show dayMicros = 86400000000 from rfl]
    omega
  rw [isoSeconds, isoSeconds, hday, hseconds]

/-- What is written of an instant has no spaces at its ends, and its zone is `Z`. -/
theorem isoSeconds_trimmed (wall : Nat) (h : wall < wallLimit) :
    strip isSpace (isoSeconds wall) = isoSeconds wall ∧
      (isoSeconds wall).getLast? = some (ch 'Z') := by
  obtain ⟨year, month, day, hour, minute, second, htext, hdate, -⟩ := isoSeconds_stamped wall h
  simp only [DateTime.validDate, Bool.and_eq_true, decide_eq_true_eq] at hdate
  have hspace : ∀ k : Fin 10, isSpace (digit k) = false := by decide
  have hfirst : isSpace (digit (year / 1000)) = false := hspace ⟨year / 1000, by omega⟩
  have hconcat : isoSeconds wall =
      stampChars year month day hour minute second [] ++ [ch 'Z'] := htext
  have hleft : lstrip isSpace (isoSeconds wall) = isoSeconds wall := by
    rw [htext, lstrip, stampChars, fourChars]
    exact List.dropWhile_cons_of_neg (by rw [hfirst]; decide)
  constructor
  · rw [strip, hleft, rstrip, hconcat, List.reverse_append, List.reverse_singleton,
      List.singleton_append, List.dropWhile_cons_of_neg (by decide), List.reverse_cons,
      List.reverse_reverse]
  · rw [hconcat]
    exact List.getLast?_concat

theorem utcWall_lt {dt : DateTime} {wall : Nat} (h : dt.utcWall = some wall) : wall < wallLimit := by
  simp only [DateTime.utcWall] at h
  split at h
  · rename_i hrange
    cases h
    omega
  · cases h

end Py
