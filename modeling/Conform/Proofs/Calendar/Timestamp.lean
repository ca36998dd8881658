import Conform.Calendar.PlainDate
import Conform.Calendar.Timestamp
import Conform.Proofs.Calendar.Date
import Conform.Proofs.Text.Blank
import Conform.Proofs.Text.Digits

/-!
# Reading the timestamps that were written

The timestamp of an instant in the years 0 to 9999 is read as that instant, cut to milliseconds;
leap seconds come back too.  The timestamps of all other years begin with a sign and are not read,
and no timestamp is a plain date.  The milliseconds of an instant lead back to it in every year,
unless it is in a leap second.
-/

set_option autoImplicit false

namespace Conform

open Text

/-! ## Milliseconds -/

namespace Instant

/-- The instant, cut to whole milliseconds. -/
def cut (t : Instant) : Instant where
  seconds := t.seconds
  nanos := t.nanos - t.nanos % 1000000
  seconds_ge := t.seconds_ge
  seconds_le := t.seconds_le
  nanos_lt := by have := t.nanos_lt; omega
  leap h := t.leap (by omega)

theorem of?_cut (t : Instant) : of? t.seconds (t.nanos - t.nanos % 1000000) = some t.cut :=
  dif_pos ⟨t.cut.seconds_ge, t.cut.seconds_le, t.cut.nanos_lt, t.cut.leap⟩

theorem ofEpochMillis?_epochMillis {t : Instant} (h : t.nanos < nanosPerSecond) :
    ofEpochMillis? t.epochMillis = some t.cut := by
  rw [nanosPerSecond] at h
  have second : t.epochMillis / 1000 = t.seconds := by
    rw [epochMillis]
    omega
  have millis : (t.epochMillis % 1000).toNat * 1000000 = t.nanos - t.nanos % 1000000 := by
    rw [epochMillis]
    omega
  rw [ofEpochMillis?, second, millis, of?_cut]

theorem epochMillis_lt (t : Instant) : t.epochMillis.natAbs < 2 ^ 53 := by
  have := t.seconds_ge
  have := t.seconds_le
  have := t.nanos_lt
  rw [epochMillis]
  omega

theorem secondOfDay_lt (t : Instant) : t.secondOfDay < 86400 := by
  rw [secondOfDay, secondsPerDay]
  omega

/-- Leap seconds come at the end of a minute. -/
theorem secondOfDay_of_leap {t : Instant} (h : nanosPerSecond ≤ t.nanos) :
    t.secondOfDay % 60 = 59 := by
  have := t.leap h
  rw [secondOfDay, secondsPerDay]
  omega

end Instant

namespace Timestamp

/-! ## Dates -/

theorem expect?_cons (c : Char) (rest : List Char) : expect? c (c :: rest) = some rest := if_pos rfl

theorem readDate?_writeDate {d : Date} (valid : d.isValid = true)
    (inRange : 0 ≤ d.year ∧ d.year ≤ 9999) (rest : List Char) :
    readDate? (writeDate d ++ rest) = some (d, rest) := by
  have months := Date.month_le_of_isValid valid
  have days := Date.day_le_of_isValid valid
  have year := readDigits?_padded 4 (n := d.year.toNat) (by decide) (by omega)
  have month := readDigits?_padded 2 (n := d.month) (by decide) (by omega)
  have day := readDigits?_padded 2 (n := d.day) (by decide) (by omega)
  simp [readDate?, writeDate, writeYear, inRange, year, month, day, expect?_cons, valid]

/-! ## Times of the day -/

theorem readFraction?_padded {n : Nat} (short : n < 1000) {rest : List Char}
    (taken : rest.takeWhile Char.isDigit = []) (dropped : rest.dropWhile Char.isDigit = rest) :
    readFraction? ('.' :: (padded 3 n ++ rest)) = some (n * 1000000, rest) := by
  have digits := allDigits_padded 3 n
  have length : (padded 3 n).length = 3 := length_padded (by decide) short
  have nanos : fractionNanos (padded 3 n) = n * 1000000 := by
    have all : (padded 3 n).take 9 = padded 3 n := List.take_of_length_le (by omega)
    rw [fractionNanos, all, length, digitsValue_append_zeros, digitsValue_padded]
    rfl
  have some : (padded 3 n).isEmpty = false := by
    rw [List.isEmpty_eq_false_iff]
    exact padded_ne_nil 3 n
  simp only [readFraction?, takeWhile_digits_append digits rest taken,
    dropWhile_digits_append digits rest dropped, some, nanos]
  rfl

theorem readTime?_writeTime (t : Instant) (rest : List Char)
    (taken : rest.takeWhile Char.isDigit = []) (dropped : rest.dropWhile Char.isDigit = rest) :
    readTime? (writeTime t ++ rest) = some (t.secondOfDay, t.nanos - t.nanos % 1000000, rest) := by
  have inDay := t.secondOfDay_lt
  have nanos := t.nanos_lt
  have leap := @Instant.secondOfDay_of_leap t
  simp only [Instant.nanosPerSecond] at leap
  have hour := readDigits?_padded 2 (n := t.secondOfDay / 3600) (by decide) (by omega)
  have minute := readDigits?_padded 2 (n := t.secondOfDay / 60 % 60) (by decide) (by omega)
  have second := readDigits?_padded 2
    (n := t.secondOfDay % 60 + t.nanos / 1000000000) (by decide) (by omega)
  have fraction := readFraction?_padded (n := t.nanos % 1000000000 / 1000000) (by omega)
    taken dropped
  have inRange : t.secondOfDay / 3600 ≤ 23 ∧ t.secondOfDay / 60 % 60 ≤ 59 ∧
      t.secondOfDay % 60 + t.nanos / 1000000000 ≤ 60 := by omega
  simp only [readTime?, writeTime, Instant.nanosPerSecond, List.append_assoc, List.cons_append,
    List.nil_append, hour, minute, second, fraction, expect?_cons, bind, Option.bind_some,
    if_pos inRange]
  split
  · next isLeap =>
    -- Second 60 is written for the leap second after second 59.
    simp only [Option.some.injEq, Prod.mk.injEq, and_true]
    omega
  · next notLeap =>
    simp only [Option.some.injEq, Prod.mk.injEq, and_true]
    omega

/-! ## Timestamps -/

theorem read?_write {t : Instant} (inRange : 0 ≤ t.date.year ∧ t.date.year ≤ 9999) :
    read? (write t) = some t.cut := by
  have valid : t.date.isValid = true := Date.isValid_ofDayNumber _
  have date := readDate?_writeDate valid inRange (['T'] ++ (writeTime t ++ ['Z']))
  have time := readTime?_writeTime t ['Z'] rfl rfl
  have second : t.date.dayNumber * Instant.secondsPerDay + t.secondOfDay - 0 = t.seconds := by
    rw [Instant.date, Date.dayNumber_ofDayNumber, Instant.secondOfDay, Instant.secondsPerDay]
    omega
  rw [read?, write, String.toList_ofList, List.append_assoc, List.append_assoc, date]
  simp only [List.singleton_append, bind, Option.bind_some, isSeparator, time, readOffset?, second,
    Instant.of?_cut]
  rfl

/-- The sign of a year is no digit, and the year is read first. -/
theorem read?_write_eq_none {t : Instant} (outside : ¬ (0 ≤ t.date.year ∧ t.date.year ≤ 9999)) :
    read? (write t) = none := by
  have sign : (if t.date.year < 0 then '-' else '+').isDigit = false := by
    split <;> rfl
  simp [read?, write, writeDate, writeYear, outside, readDate?, readDigits?, sign]

theorem noBlanks_write (t : Instant) : NoBlanks (write t).toList := by
  have digits : ∀ width n, NoBlanks (padded width n) := fun width n =>
    (allDigits_padded width n).noBlanks
  have mark : ∀ c, Unicode.isWhiteSpace c = false → NoBlanks [c] := by
    intro c h d member
    rw [List.mem_singleton.mp member]
    exact h
  have year : NoBlanks (writeYear t.date.year) := by
    rw [writeYear]
    split
    · exact digits _ _
    · refine (mark _ ?_).append (digits _ _)
      split <;> rfl
  rw [write, String.toList_ofList]
  have date : NoBlanks (writeDate t.date) :=
    (((year.append (mark _ rfl)).append (digits _ _)).append (mark _ rfl)).append (digits _ _)
  have time : NoBlanks (writeTime t) :=
    ((((((digits _ _).append (mark _ rfl)).append (digits _ _)).append (mark _ rfl)).append
      (digits _ _)).append (mark _ rfl)).append (digits _ _)
  exact ((date.append (mark _ rfl)).append time).append (mark _ rfl)

theorem mem_write (t : Instant) : 'T' ∈ (write t).toList := by
  simp [write]

end Timestamp

/-! ## Plain dates -/

namespace PlainDate

/-- Reading a number takes digits alone. -/
theorem mem_of_readNumber? {width n : Nat} {text rest : List Char}
    (h : readNumber? width text = some (n, rest)) (there : 'T' ∈ text) : 'T' ∈ rest := by
  simp only [readNumber?] at h
  split at h
  · cases h
  · cases h
    set digits := (text.take width).takeWhile Char.isDigit with taken
    have start : digits <+: text :=
      (List.takeWhile_prefix _).trans (List.take_prefix _ _)
    have whole : text = digits ++ text.drop digits.length := by
      rw [← List.prefix_iff_eq_append.mp start]
      simp
    rw [whole] at there
    refine (List.mem_append.mp there).resolve_left fun member => ?_
    have digit := List.mem_takeWhile_imp member
    exact absurd digit (by decide)

theorem mem_trimLeft {text : List Char} (there : 'T' ∈ text) : 'T' ∈ trimLeft text := by
  rw [← List.takeWhile_append_dropWhile (p := Unicode.isWhiteSpace) (l := text)] at there
  refine (List.mem_append.mp there).resolve_left fun member => ?_
  exact absurd (List.mem_takeWhile_imp member) (by decide)

theorem mem_of_readYear? {n : Int} {text rest : List Char} (h : readYear? text = some (n, rest))
    (there : 'T' ∈ text) : 'T' ∈ rest := by
  have counted : ∀ {width : Nat} {digits : List Char} (sign : Nat → Int), 'T' ∈ digits →
      (readNumber? width digits).map (fun read => (sign read.1, read.2)) = some (n, rest) →
      'T' ∈ rest := by
    intro width digits sign inDigits found
    obtain ⟨⟨m, after⟩, read, same⟩ := Option.map_eq_some_iff.mp found
    cases same
    exact mem_of_readNumber? read inDigits
  have trimmed := mem_trimLeft there
  rw [readYear?] at h
  split at h
  · next others found =>
    rw [found] at trimmed
    exact counted (fun m => -m) ((List.mem_cons.mp trimmed).resolve_left (by decide)) h
  · next others found =>
    rw [found] at trimmed
    exact counted (fun m => m) ((List.mem_cons.mp trimmed).resolve_left (by decide)) h
  · exact counted (fun m => m) trimmed h

theorem mem_of_readPart? {n : Nat} {text rest : List Char} (h : readPart? text = some (n, rest))
    (there : 'T' ∈ text) : 'T' ∈ rest := by
  rw [readPart?.eq_def] at h
  split at h
  · next others =>
    have after := (List.mem_cons.mp there).resolve_left (by decide)
    exact mem_of_readNumber? h (mem_trimLeft after)
  · cases h

/-- A plain date ends with its day, so the mark of a time cannot follow. -/
theorem read?_eq_none_of_mem {text : String} (there : 'T' ∈ text.toList) : read? text = none := by
  by_contra other
  obtain ⟨t, found⟩ := Option.ne_none_iff_exists'.mp other
  simp only [read?, Option.bind_eq_bind, Option.bind_eq_some_iff] at found
  obtain ⟨⟨year, afterYear⟩, readYear, ⟨month, afterMonth⟩, readMonth, ⟨day, afterDay⟩,
    readDay, done⟩ :=
    found
  have left := mem_of_readPart? readDay
    (mem_of_readPart? readMonth (mem_of_readYear? readYear there))
  split at done
  · next atEnd =>
    have nothing : afterDay = [] := List.isEmpty_iff.mp atEnd.1
    rw [nothing] at left
    cases left
  · cases done

end PlainDate

end Conform
