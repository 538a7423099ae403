import Mathlib.Algebra.Group.Nat.Defs
import Mathlib.Data.Int.Notation
import Mathlib.Data.List.GetD
import Mathlib.Tactic.SplitIfs
import ComponentDocs.RecordData

/-!
# Moments are read as they were written

Every moment that exists is read back from its text (`dateTime?_isoText`).  The reader knows many
more notations than the writer uses, so at each point the proof has to show that the text is not
taken for another one: the fifth character tells the date part, a colon tells a time with colons,
and no character of a time of day can be the sign of an offset.

Reading is stated for characters with a rest behind them, so that the parts of a text can be read
one after the other.
-/

namespace ComponentDocs

/-- Whether a moment exists: its date is in the calendar, and the numbers of its time of day and
its offset are in range. -/
structure DateTime.Valid (t : DateTime) : Prop where
  date_eq : Calendar.date? t.date.year t.date.month t.date.day = .ok t.date
  time_eq : Calendar.checkTime t = .ok t
  microsecond_lt : t.microsecond < 1000000

namespace IsoText

/-! ## Numbers with a fixed width -/

variable {width n : ℕ} {rest : List Char}

theorem toList_padded (width n : ℕ) : (padded width n).toList =
    List.replicate (width - n.repr.length) '0' ++ Nat.toDigits 10 n := by
  simp [padded, Nat.repr_eq_ofList_toDigits]

theorem isDigit_of_mem_padded {c : Char} (hc : c ∈ (padded width n).toList) : c.isDigit := by
  rw [toList_padded, List.mem_append] at hc
  rcases hc with hc | hc
  · rw [List.eq_of_mem_replicate hc]
    rfl
  · exact Nat.isDigit_of_mem_toDigits (by decide) (by decide) hc

theorem length_padded (hwidth : 0 < width) (hn : n < 10 ^ width) :
    (padded width n).toList.length = width := by
  have hdigits : (Nat.toDigits 10 n).length ≤ width :=
    (Nat.length_toDigits_le_iff (by decide) hwidth).mpr hn
  have hlength : n.repr.length = (Nat.toDigits 10 n).length := by
    simp [Nat.repr_eq_ofList_toDigits]
  rw [toList_padded, List.length_append, List.length_replicate, hlength]
  omega

/-- The zeros in front of a number do not change it. -/
theorem digits?_padded (width n : ℕ) : digits? (padded width n).toList = some n := by
  have hne : (padded width n).toList.isEmpty = false := by
    rw [toList_padded]
    simp [Nat.toDigits_ne_nil]
  have hall : (padded width n).toList.all Char.isDigit :=
    List.all_eq_true.mpr fun c hc => isDigit_of_mem_padded hc
  have hvalue : (padded width n).toList.foldl (fun m c => m * 10 + (c.toNat - '0'.toNat)) 0 =
      Nat.ofDigitChars 10 (padded width n).toList 0 := by
    simp [Nat.ofDigitChars_eq_foldl, Nat.mul_comm]
  rw [digits?, hne, hall, hvalue, toList_padded, Nat.ofDigitChars_append,
    Nat.ofDigitChars_replicate_zero, Nat.mul_zero, Nat.ofDigitChars_ten_toDigits]
  rfl

theorem number?_padded (hwidth : 0 < width) (hn : n < 10 ^ width) (rest : List Char) :
    number? width ((padded width n).toList ++ rest) = some (n, rest) := by
  have hlength : (padded width n).toList.length = width := length_padded hwidth hn
  have hlong : ¬ ((padded width n).toList ++ rest).length < width := by
    rw [List.length_append]
    omega
  rw [number?, if_neg hlong, List.take_left' hlength, List.drop_left' hlength, digits?_padded]
  rfl

/-! ## Times of day -/

/-- The characters of a time of day; without seconds, it ends after the minutes. -/
def clockChars (seconds : Bool) (c : Clock) : List Char :=
  (padded 2 c.hour).toList ++ ':' :: (padded 2 c.minute).toList ++
    if seconds then
      ':' :: (padded 2 c.second).toList ++
        if c.microsecond = 0 then [] else '.' :: (padded 6 c.microsecond).toList
    else []

/-- Whether each part of a time of day can be written with its number of digits. -/
structure Clock.Fits (c : Clock) : Prop where
  hour_lt : c.hour < 10 ^ 2
  minute_lt : c.minute < 10 ^ 2
  second_lt : c.second < 10 ^ 2
  microsecond_lt : c.microsecond < 10 ^ 6

variable {c : Clock}

/-- A time of day consists of digits, colons and points. -/
theorem isDigit_or_of_mem_clockChars {seconds : Bool} {ch : Char}
    (hch : ch ∈ clockChars seconds c) : ch.isDigit ∨ ch = ':' ∨ ch = '.' := by
  have hpadded : ∀ width n, ch ∈ (padded width n).toList → ch.isDigit ∨ ch = ':' ∨ ch = '.' :=
    fun _ _ hch => .inl (isDigit_of_mem_padded hch)
  have hfraction (n : ℕ) (hch : ch ∈ if n = 0 then [] else '.' :: (padded 6 n).toList) :
      ch.isDigit ∨ ch = ':' ∨ ch = '.' := by
    split at hch
    · exact absurd hch List.not_mem_nil
    · rcases List.mem_cons.mp hch with hch | hch
      · exact .inr (.inr hch)
      · exact hpadded _ _ hch
  rw [clockChars, List.mem_append, List.mem_append, List.mem_cons] at hch
  rcases hch with (hch | hch | hch) | hch
  · exact hpadded _ _ hch
  · exact .inr (.inl hch)
  · exact hpadded _ _ hch
  · cases seconds with
    | false => exact absurd hch List.not_mem_nil
    | true =>
        rw [if_pos rfl, List.mem_append, List.mem_cons] at hch
        rcases hch with (hch | hch) | hch
        · exact .inr (.inl hch)
        · exact hpadded _ _ hch
        · exact hfraction _ hch

theorem not_mem_clockChars {seconds : Bool} {ch : Char}
    (hch : ch.isDigit = false ∧ ch ≠ ':' ∧ ch ≠ '.') : ch ∉ clockChars seconds c := by
  intro hmem
  rcases isDigit_or_of_mem_clockChars hmem with hdigit | hcolon | hpoint
  · exact absurd hdigit (by simp [hch.1])
  · exact hch.2.1 hcolon
  · exact hch.2.2 hpoint

/-- The digits of a fraction are read as microseconds. -/
private theorem fraction?_padded (clock : Clock) (hn : n < 10 ^ 6) :
    fraction? clock (padded 6 n).toList = some ({ clock with microsecond := n }, true) := by
  have hlength : (padded 6 n).toList.length = 6 := length_padded (by decide) hn
  have htake : (padded 6 n).toList.take 6 = (padded 6 n).toList :=
    List.take_of_length_le (Nat.le_of_eq hlength)
  have hdrop : (padded 6 n).toList.drop 6 = [] := List.drop_of_length_le (Nat.le_of_eq hlength)
  simp [fraction?, htake, hdrop, digits?_padded, hlength]

/-- Behind a colon stands the next part. -/
private theorem afterPart_colon (clock : Clock) (next : List Char → Option (Clock × Bool))
    (hrest : rest ≠ []) : afterPart true clock next (':' :: rest) = next rest := by
  obtain ⟨ch, rest, rfl⟩ := List.exists_cons_of_ne_nil hrest
  rfl

/-- Behind a point stands a fraction. -/
private theorem afterPart_point (clock : Clock) (next : List Char → Option (Clock × Bool))
    (hrest : rest ≠ []) : afterPart true clock next ('.' :: rest) = fraction? clock rest := by
  obtain ⟨ch, rest, rfl⟩ := List.exists_cons_of_ne_nil hrest
  rfl

private theorem padded_append_ne_nil (width n : ℕ) (rest : List Char) :
    (padded width n).toList ++ rest ≠ [] := by
  rw [toList_padded]
  simp [Nat.toDigits_ne_nil]

/-- A time of day is read back, if the parts that are not written are zero. -/
theorem clock?_clockChars (hfits : c.Fits) {seconds : Bool}
    (hshort : seconds = false → c.second = 0 ∧ c.microsecond = 0) :
    clock? (clockChars seconds c) = some (c, true) := by
  obtain ⟨hour, minute, second, microsecond⟩ := c
  obtain ⟨hhour, hminute, hsecond, hmicrosecond⟩ := hfits
  dsimp only at hhour hminute hsecond hmicrosecond hshort
  have htwo {n : ℕ} (hn : n < 10 ^ 2) (rest : List Char) :
      number? 2 ((padded 2 n).toList ++ rest) = some (n, rest) :=
    number?_padded (by decide) hn rest
  unfold clockChars clock?
  rw [List.append_assoc, htwo hhour, List.cons_append]
  simp only [Option.bind_eq_bind, Option.bind_some, List.head?_cons, beq_self_eq_true]
  rw [afterPart_colon _ _ (padded_append_ne_nil 2 minute _), htwo hminute, Option.bind_some]
  cases seconds with
  | false =>
      obtain ⟨rfl, rfl⟩ := hshort rfl
      rfl
  | true =>
      rw [if_pos rfl, List.cons_append, afterPart_colon _ _ (padded_append_ne_nil 2 second _),
        htwo hsecond, Option.bind_some]
      by_cases hzero : microsecond = 0
      · rw [if_pos hzero, hzero]
        rfl
      · rw [if_neg hzero, ← List.append_nil (padded 6 microsecond).toList,
          afterPart_point _ _ (padded_append_ne_nil 6 microsecond _), List.append_nil,
          fraction?_padded _ hmicrosecond]

/-! ## Offsets -/

/-- The time of day that an offset is written as. -/
def offsetClock (offset : ℤ) : Clock where
  hour := offset.natAbs / 1000000 / 3600
  minute := offset.natAbs / 1000000 / 60 % 60
  second := offset.natAbs / 1000000 % 60
  microsecond := offset.natAbs % 1000000

/-- Whether an offset is written with seconds. -/
def hasSeconds (offset : ℤ) : Bool :=
  !(offset.natAbs / 1000000 % 60 == 0 && offset.natAbs % 1000000 == 0)

/-- The sign of an offset. -/
def signChar (offset : ℤ) : Char := if offset < 0 then '-' else '+'

theorem signChar_eq (offset : ℤ) : signChar offset = '+' ∨ signChar offset = '-' := by
  unfold signChar
  split_ifs
  · exact .inr rfl
  · exact .inl rfl

theorem toList_offsetText (offset : ℤ) : (offsetText offset).toList =
    signChar offset :: clockChars (hasSeconds offset) (offsetClock offset) := by
  have hsign : (if offset < 0 then "-" else "+").toList = [signChar offset] := by
    by_cases hsign : offset < 0 <;> simp [signChar, hsign]
  unfold offsetText clockChars hasSeconds
  simp only [String.toList_append, hsign]
  by_cases hfraction : offset.natAbs % 1000000 = 0
  · by_cases hsecond : offset.natAbs / 1000000 % 60 = 0
    · simp [hfraction, hsecond, offsetClock]
    · simp [hfraction, hsecond, offsetClock]
  · simp [hfraction, offsetClock]

variable {offset : ℤ}

theorem offset?_clockChars (hlow : -Calendar.microsecondsPerDay < offset)
    (hhigh : offset < Calendar.microsecondsPerDay) :
    offset? (signChar offset == '-') (clockChars (hasSeconds offset) (offsetClock offset)) =
      some offset := by
  have hfits : (offsetClock offset).Fits := by
    unfold Calendar.microsecondsPerDay at hlow hhigh
    constructor <;> dsimp only [offsetClock] <;> omega
  have hshort : hasSeconds offset = false →
      (offsetClock offset).second = 0 ∧ (offsetClock offset).microsecond = 0 := by
    simp [hasSeconds, offsetClock]
  have hwhole : wholeClock? (clockChars (hasSeconds offset) (offsetClock offset)) =
      some (offsetClock offset) := by
    rw [wholeClock?, clock?_clockChars hfits hshort]
  have hnegative : (signChar offset == '-') = decide (offset < 0) := by
    by_cases hsign : offset < 0 <;> simp [signChar, hsign]
  have hamount : (((offsetClock offset).hour * 60 + (offsetClock offset).minute) * 60 +
      (offsetClock offset).second) * 1000000 + (offsetClock offset).microsecond =
        offset.natAbs := by
    dsimp only [offsetClock]
    omega
  rw [offset?, hwhole, Option.bind_eq_bind, Option.bind_some, hamount, hnegative]
  by_cases hsign : offset < 0
  · have hback : -(offset.natAbs : ℤ) = offset := by omega
    rw [decide_eq_true hsign]
    exact congrArg some hback
  · have hback : (offset.natAbs : ℤ) = offset := by omega
    rw [decide_eq_false hsign]
    exact congrArg some hback

/-! ## Dates -/

variable {d : Date}

/-- The parts of a date that exists can be written with their numbers of digits. -/
theorem lt_of_date? (hd : Calendar.date? d.year d.month d.day = .ok d) :
    d.year < 10 ^ 4 ∧ d.month < 10 ^ 2 ∧ d.day < 10 ^ 2 := by
  have hmonth : Calendar.daysInMonth d.year d.month ≤ 31 := by
    unfold Calendar.daysInMonth
    split_ifs <;> decide
  unfold Calendar.date? at hd
  split_ifs at hd with hyear hmonths hday
  simp only [Bool.or_eq_true, decide_eq_true_eq, not_or, Nat.not_lt] at hyear hmonths hday
  omega

theorem toList_dateText (d : Date) : d.isoText.toList =
    (padded 4 d.year).toList ++ '-' :: ((padded 2 d.month).toList ++
      '-' :: (padded 2 d.day).toList) := by
  simp [Date.isoText]

theorem length_dateText (hd : Calendar.date? d.year d.month d.day = .ok d) :
    d.isoText.toList.length = 10 := by
  obtain ⟨hyear, hmonth, hday⟩ := lt_of_date? hd
  rw [toList_dateText, List.length_append, List.length_cons, List.length_append,
    List.length_cons, length_padded (by decide) hyear, length_padded (by decide) hmonth,
    length_padded (by decide) hday]

/-- The first digit of a number, and the others. -/
private theorem exists_digit (hwidth : 0 < width) (hn : n < 10 ^ width) :
    ∃ ch rest, (padded width n).toList = ch :: rest ∧ ch.isDigit := by
  cases hchars : (padded width n).toList with
  | nil =>
      have hlength := length_padded hwidth hn
      rw [hchars, List.length_nil] at hlength
      omega
  | cons ch rest =>
      exact ⟨ch, rest, rfl, isDigit_of_mem_padded (hchars ▸ List.mem_cons_self)⟩

/-- The fifth and the sixth character tell that the first ten are the date. -/
theorem dateLength?_dateText (hd : Calendar.date? d.year d.month d.day = .ok d)
    (rest : List Char) : dateLength? (d.isoText.toList ++ rest) = some 10 := by
  obtain ⟨hyear, hmonth, -⟩ := lt_of_date? hd
  have hlong : 10 ≤ (d.isoText.toList ++ rest).length := by
    rw [List.length_append, length_dateText hd]
    omega
  have hfour : (padded 4 d.year).toList.length = 4 := length_padded (by decide) hyear
  obtain ⟨ch, more, hchars, hdigit⟩ := exists_digit (by decide) hmonth
  have hfifth : (d.isoText.toList ++ rest).getD 4 ' ' = '-' := by
    rw [toList_dateText, List.append_assoc, List.getD_append_right _ _ _ _ (by omega), hfour]
    rfl
  have hsixth : (d.isoText.toList ++ rest).getD 5 ' ' = ch := by
    rw [toList_dateText, List.append_assoc, List.getD_append_right _ _ _ _ (by omega), hfour,
      hchars]
    rfl
  have hother : ch ≠ 'W' := fun hch => absurd hdigit (by rw [hch]; decide)
  have hseven : ¬ (d.isoText.toList ++ rest).length = 7 := by omega
  simp only [dateLength?, hfifth, hsixth, beq_iff_eq, hseven, hother, if_false, if_true]

theorem date?_dateText (hd : Calendar.date? d.year d.month d.day = .ok d) :
    date? d.isoText.toList = some d := by
  obtain ⟨hyear, hmonth, hday⟩ := lt_of_date? hd
  obtain ⟨ch, more, hchars, hdigit⟩ := exists_digit (by decide) hmonth
  have hother : ch ≠ 'W' := fun hch => absurd hdigit (by rw [hch]; decide)
  have hdayChars : number? 2 (padded 2 d.day).toList = some (d.day, []) := by
    have hread := number?_padded (by decide) hday []
    rwa [List.append_nil] at hread
  rw [toList_dateText, date?, number?_padded (by decide) hyear]
  simp only [Option.bind_eq_bind, Option.bind_some, List.head?_cons, beq_self_eq_true, if_true,
    List.drop_one, List.tail_cons]
  split
  · -- a week date would go on with a letter
    next rest hweek =>
      rw [hchars] at hweek
      exact absurd (List.cons.inj hweek).1 hother
  · rw [number?_padded (by decide) hmonth, Option.bind_some]
    dsimp only
    rw [List.head?_cons, if_neg (by decide), List.tail_cons, hdayChars, Option.bind_some,
      List.isEmpty_nil, if_pos rfl, hd]
    rfl

/-! ## Moments -/

/-- The time of day of a moment. -/
def clockOf (t : DateTime) : Clock := ⟨t.hour, t.minute, t.second, t.microsecond⟩

/-- The characters of an offset, if there is one. -/
def offsetChars : Option ℤ → List Char
  | none => []
  | some offset => signChar offset :: clockChars (hasSeconds offset) (offsetClock offset)

theorem toList_isoText (t : DateTime) : t.isoText.toList =
    t.date.isoText.toList ++ 'T' :: (clockChars true (clockOf t) ++ offsetChars t.offset) := by
  unfold DateTime.isoText DateTime.isoTextWith clockChars clockOf
  cases hoffset : t.offset with
  | none => by_cases hzero : t.microsecond = 0 <;> simp [hzero, offsetChars]
  | some offset =>
      by_cases hzero : t.microsecond = 0 <;>
        simp [hzero, offsetChars, toList_offsetText]

/-- What `checkTime` has accepted is in range. -/
theorem lt_of_checkTime {t : DateTime} (ht : Calendar.checkTime t = .ok t) :
    t.hour < 24 ∧ t.minute < 60 ∧ t.second < 60 ∧ ∀ offset ∈ t.offset,
      -Calendar.microsecondsPerDay < offset ∧ offset < Calendar.microsecondsPerDay := by
  unfold Calendar.checkTime at ht
  split_ifs at ht with hhour hminute hsecond
  refine ⟨by omega, by omega, by omega, fun offset hoffset => ?_⟩
  rw [Option.mem_def.mp hoffset] at ht
  dsimp only at ht
  split_ifs at ht with hrange
  simpa using hrange

/-- Whether a character ends a time of day and begins an offset. -/
def isMark (ch : Char) : Bool := ch == '+' || ch == '-' || ch == 'Z'

private theorem time?_of_forall_not_mark {chars : List Char}
    (hmarks : ∀ ch ∈ chars, (!isMark ch) = true) :
    time? chars = (wholeClock? chars).map (·, none) := by
  have hbefore : chars.takeWhile (!isMark ·) = chars := by
    rw [← List.append_nil chars, List.takeWhile_append_of_pos (by simpa using hmarks),
      List.takeWhile_nil]
  unfold isMark at hbefore
  simp only [time?, hbefore, List.drop_length]

private theorem time?_append_sign {chars rest : List Char} {sign : Char}
    (hmarks : ∀ ch ∈ chars, (!isMark ch) = true) (hsign : sign = '+' ∨ sign = '-') :
    time? (chars ++ sign :: rest) = (clock? chars).bind fun clock =>
      (offset? (sign == '-') rest).map fun offset => (clock.1, some offset) := by
  have hbefore : (chars ++ sign :: rest).takeWhile (!isMark ·) = chars := by
    rw [List.takeWhile_append_of_pos hmarks, List.takeWhile_cons_of_neg, List.append_nil]
    rcases hsign with rfl | rfl <;> decide
  have hother : sign ≠ 'Z' := by
    rcases hsign with rfl | rfl <;> decide
  unfold isMark at hbefore
  simp only [time?, hbefore, List.drop_left]
  -- of the four ways to go on after a time of day, only a sign fits
  split
  · next hchars => cases hchars
  · next hchars => exact absurd (List.cons.inj hchars).1 hother
  · next hchars => exact absurd (List.cons.inj hchars).1 hother
  · next hchars =>
      obtain ⟨rfl, rfl⟩ := List.cons.inj hchars
      cases clock? chars <;> cases offset? (sign == '-') rest <;> rfl

/-- A time of day and its offset are told apart by the sign of the offset. -/
theorem time?_chars {t : DateTime} (ht : t.Valid) :
    time? (clockChars true (clockOf t) ++ offsetChars t.offset) = some (clockOf t, t.offset) := by
  obtain ⟨hhour, hminute, hsecond, hoffset⟩ := lt_of_checkTime ht.time_eq
  have hmicrosecond := ht.microsecond_lt
  have hfits : (clockOf t).Fits := by
    constructor <;> dsimp only [clockOf] <;> omega
  have hclock : clock? (clockChars true (clockOf t)) = some (clockOf t, true) :=
    clock?_clockChars hfits (by simp)
  have hmarks : ∀ ch ∈ clockChars true (clockOf t), (!isMark ch) = true := by
    intro ch hch
    have hplus : ch ≠ '+' := by
      rintro rfl
      exact not_mem_clockChars (by decide) hch
    have hminus : ch ≠ '-' := by
      rintro rfl
      exact not_mem_clockChars (by decide) hch
    have hz : ch ≠ 'Z' := by
      rintro rfl
      exact not_mem_clockChars (by decide) hch
    simp [isMark, hplus, hminus, hz]
  cases hpresent : t.offset with
  | none =>
      rw [offsetChars, List.append_nil, time?_of_forall_not_mark hmarks, wholeClock?, hclock]
      rfl
  | some offset =>
      obtain ⟨hlow, hhigh⟩ := hoffset offset hpresent
      rw [offsetChars, time?_append_sign hmarks (signChar_eq offset), hclock, Option.bind_some,
        offset?_clockChars hlow hhigh]
      rfl

/-- **A moment that exists is read back from its text.** -/
theorem dateTime?_isoText {t : DateTime} (ht : t.Valid) : dateTime? t.isoText = some t := by
  have hlength : t.date.isoText.toList.length = 10 := length_dateText ht.date_eq
  have hlong : ¬ t.isoText.toList.length < 7 := by
    rw [toList_isoText, List.length_append, hlength]
    omega
  rw [dateTime?, if_neg hlong, toList_isoText]
  simp only [dateLength?_dateText ht.date_eq, List.take_left' hlength, List.drop_left' hlength,
    date?_dateText ht.date_eq, time?_chars ht, Option.bind_eq_bind, Option.bind_some]
  exact congrArg Except.toOption ht.time_eq

/-! ## Universal time -/

theorem z_not_mem_isoText {t : DateTime} : 'Z' ∉ t.isoText.toList := by
  have hpadded (width n : ℕ) : 'Z' ∉ (padded width n).toList :=
    fun hz => absurd (isDigit_of_mem_padded hz) (by decide)
  have hclock (seconds : Bool) (c : Clock) : 'Z' ∉ clockChars seconds c :=
    not_mem_clockChars (by decide)
  have hoffset : 'Z' ∉ offsetChars t.offset := by
    cases t.offset with
    | none => exact List.not_mem_nil
    | some offset =>
        have hsign : 'Z' ≠ signChar offset := by
          rcases signChar_eq offset with hsign | hsign <;> rw [hsign] <;> decide
        rw [offsetChars, List.mem_cons, not_or]
        exact ⟨hsign, hclock _ _⟩
  rw [toList_isoText, toList_dateText]
  simp [hpadded, hclock, hoffset]

end IsoText

namespace Text

/-- Putting back what was replaced, if the sign for it stands nowhere else. -/
private theorem flatMap_replaceFrom {z : Char} {word : List Char} (hword : word ≠ [])
    {cs : List Char} (hz : z ∉ cs) (skip : ℕ) :
    (replaceFrom word [z] skip cs).flatMap (fun d => if d == z then word else [d]) =
      cs.drop skip := by
  induction cs generalizing skip with
  | nil => rw [replaceFrom, List.flatMap_nil, List.drop_nil]
  | cons c cs ih =>
      obtain ⟨hc, hcs⟩ := not_or.mp (List.mem_cons.not.mp hz)
      cases skip with
      | succ skip => rw [replaceFrom, List.drop_succ_cons, ih hcs]
      | zero =>
          rw [replaceFrom]
          split_ifs with hfound
          · -- the rest of the occurrence is skipped, and putting it back makes up for that
            obtain ⟨rest, hrest⟩ := List.isPrefixOf_iff_prefix.mp hfound
            obtain ⟨first, more, rfl⟩ := List.exists_cons_of_ne_nil hword
            obtain ⟨rfl, rfl⟩ := List.cons.inj hrest
            rw [List.flatMap_append, ih hcs]
            simp
          · rw [List.flatMap_cons, ih hcs]
            simp [Ne.symm hc]

theorem replaceChar_replaceWord {z : Char} {word text : String} (hword : word ≠ "")
    (hz : z ∉ text.toList) : replaceChar z word (replaceWord word z.toString text) = text := by
  have hne : word.toList ≠ [] := by simpa using hword
  have hback := flatMap_replaceFrom hne hz 0
  rw [replaceChar, replaceWord, String.toList_ofList]
  simpa using congrArg String.ofList hback

end Text

/-- Marking universal time by a letter loses nothing. -/
theorem DateTime.replaceChar_zonedText (t : DateTime) :
    Text.replaceChar 'Z' "+00:00" t.zonedText = t.isoText :=
  Text.replaceChar_replaceWord (by decide) IsoText.z_not_mem_isoText

end ComponentDocs
