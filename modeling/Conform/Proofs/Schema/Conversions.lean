import Conform.Proofs.Calendar.Timestamp
import Conform.Proofs.Number.Style
import Conform.Proofs.Validator.Coercion
import Conform.Schema.Build
import Conform.Schema.Parse

/-!
# Conversions there and back

A number that is converted to a text and back is the same number, unless it is not finite: then it
is told apart and refused.  A date is converted to a number and to a text, and both lead back to it,
cut to milliseconds.  The number does so in every year but not for leap seconds, and the text for
leap seconds too, but only in the years that are written with four digits.
-/

set_option autoImplicit false

namespace Conform

/-! ## What coercions make of converted values -/

namespace Coercion

theorem apply_toNumber_display {before after : String} (blankBefore : Text.AllBlank before.toList)
    (blankAfter : Text.AllBlank after.toList) (x : Binary64) :
    toNumber.apply (.text (before ++ x.display ++ after)) = .number x := by
  have trimmed := Text.trim_between blankBefore x.noBlanks_display blankAfter
  simp [apply, convert?, number?, trimmed, Binary64.read?_display]

theorem apply_toDate_number {t : Instant} (h : t.nanos < Instant.nanosPerSecond) :
    toDate.apply (.number (.ofInt t.epochMillis)) = .date t.cut := by
  have whole := Binary64.truncate?_of_smallWhole? (Binary64.smallWhole?_ofInt t.epochMillis_lt)
  simp [apply, convert?, date?, whole, Instant.ofEpochMillis?_epochMillis h]

theorem apply_toDate_write {t : Instant} (inRange : 0 ≤ t.date.year ∧ t.date.year ≤ 9999) :
    toDate.apply (.text (Timestamp.write t)) = .date t.cut := by
  have trimmed := Text.trim_eq_self (Timestamp.noBlanks_write t)
  simp [apply, convert?, date?, trimmed, Timestamp.read?_write inRange]

theorem apply_toDate_write_of_outside {t : Instant}
    (outside : ¬ (0 ≤ t.date.year ∧ t.date.year ≤ 9999)) :
    toDate.apply (.text (Timestamp.write t)) = .text (Timestamp.write t) := by
  have trimmed := Text.trim_eq_self (Timestamp.noBlanks_write t)
  have noDate := PlainDate.read?_eq_none_of_mem (Timestamp.mem_write t)
  simp [apply, convert?, date?, trimmed, Timestamp.read?_write_eq_none outside, noDate]

end Coercion

namespace Schema

open Validator

variable {σ : Type}

theorem asNumber_result (v : Value) (p : Path) (s : σ) :
    (asNumber.validate v p s).result = numberOutcome .empty (Coercion.toNumber.apply v) p :=
  coerce_result .toNumber (ofOutcome (numberOutcome .empty)) v p s

theorem asDate_result (v : Value) (p : Path) (s : σ) :
    (asDate.validate v p s).result = dateOutcome .empty (Coercion.toDate.apply v) p :=
  coerce_result .toDate (ofOutcome (dateOutcome .empty)) v p s

/-! ## Numbers -/

/-- The text of a number, with or without white space around it, is converted to that very number;
-0 keeps its sign.  What is not finite has a text too, and this text is refused for the number it
stands for. -/
theorem number_there_and_back (x : Binary64) (p : Path) (s : σ) :
    ∃ text, (asText.validate (.number x) p s).result = .success text ∧
      ∀ before after : String, Text.AllBlank before.toList → Text.AllBlank after.toList →
        (x.isFinite = true →
          (asNumber.validate (.text (before ++ text ++ after)) p s).result = .success x) ∧
        (x.isFinite = false →
          ∃ e, (asNumber.validate (.text (before ++ text ++ after)) p s).result = .fail e ∧
            e.code = "not_finite") := by
  refine ⟨x.display, rfl, fun before after blankBefore blankAfter => ?_⟩
  rw [asNumber_result, Coercion.apply_toNumber_display blankBefore blankAfter]
  constructor
  · intro finite
    exact if_pos finite
  · intro notFinite
    refine ⟨Validator.notFinite .empty p x, if_neg ?_, rfl⟩
    rw [notFinite]
    exact Bool.false_ne_true

/-- The number nearest to 0.1. -/
def tenth : Binary64 := .finite false ⟨7205759403792794, 1018, by decide, by decide, by decide⟩

theorem tenth_there_and_back :
    (asText.validate (.number tenth) .root ()).result = .success "0.1" ∧
      (asNumber.validate (.text "\u00a00.1\n") .root ()).result = .success tenth ∧
      (asText.validate (.number .nan) .root ()).result = .success "NaN" ∧
      ∃ e, (asNumber.validate (.text " NaN ") .root ()).result = .fail e ∧
        e.code = "not_finite" := by
  obtain ⟨text, written, back⟩ := number_there_and_back tenth .root ()
  obtain ⟨name, nameWritten, refused⟩ := number_there_and_back .nan .root ()
  have digits : tenth.display = "0.1" := by decide +kernel
  have answer : (asText.validate (.number tenth) .root ()).result = .success tenth.display := rfl
  obtain rfl : "0.1" = text := by
    rw [answer, digits] at written
    exact Outcome.success.inj written
  obtain rfl : "NaN" = name := Outcome.success.inj nameWritten
  exact ⟨written, (back "\u00a0" "\n" (by decide) (by decide)).1 rfl, nameWritten,
    (refused " " " " (by decide) (by decide)).2 rfl⟩

/-! ## Dates -/

/-- A date is converted to the number of its milliseconds, exactly, and to a text.  The number leads
back to the date, cut to milliseconds, unless it is a leap second.  The text does, leap second or
not, when the year is one of 0 to 9999; otherwise it stays a text and is refused as one.  Where both
lead back they agree. -/
theorem date_there_and_back (t : Instant) (p : Path) (s : σ) :
    ∃ (x : Binary64) (text : String),
      (asNumber.validate (.date t) p s).result = .success x ∧
      (asText.validate (.date t) p s).result = .success text ∧
      (t.nanos < Instant.nanosPerSecond →
        x.smallWhole? = some t.epochMillis ∧
          (asDate.validate (.number x) p s).result = .success t.cut) ∧
      ((∃ u, (asDate.validate (.text text) p s).result = .success u) ↔
        0 ≤ t.date.year ∧ t.date.year ≤ 9999) ∧
      (0 ≤ t.date.year ∧ t.date.year ≤ 9999 →
        (asDate.validate (.text text) p s).result = .success t.cut) ∧
      (¬ (0 ≤ t.date.year ∧ t.date.year ≤ 9999) →
        Coercion.toDate.apply (.text text) = .text text ∧
          ∃ e, (asDate.validate (.text text) p s).result = .fail e ∧ e.path = p ∧
            e.code = "invalid_type" ∧ e.expected = some "date" ∧ e.got = some "string") ∧
      (t.nanos < Instant.nanosPerSecond → 0 ≤ t.date.year ∧ t.date.year ≤ 9999 →
        (asDate.validate (.text text) p s).result = (asDate.validate (.number x) p s).result) := by
  have exact := Binary64.smallWhole?_ofInt t.epochMillis_lt
  have finite : (Binary64.ofInt t.epochMillis).isFinite = true :=
    Binary64.isFinite_of_smallWhole? exact
  have fromNumber : t.nanos < Instant.nanosPerSecond →
      (asDate.validate (.number (.ofInt t.epochMillis)) p s).result = .success t.cut := by
    intro noLeap
    rw [asDate_result, Coercion.apply_toDate_number noLeap]
    rfl
  have fromText : 0 ≤ t.date.year ∧ t.date.year ≤ 9999 →
      (asDate.validate (.text (Timestamp.write t)) p s).result = .success t.cut := by
    intro inRange
    rw [asDate_result, Coercion.apply_toDate_write inRange]
    rfl
  have refused : ¬ (0 ≤ t.date.year ∧ t.date.year ≤ 9999) →
      (asDate.validate (.text (Timestamp.write t)) p s).result =
        .fail (.wrongKind p "date" (.text (Timestamp.write t)) none) := by
    intro outside
    rw [asDate_result, Coercion.apply_toDate_write_of_outside outside]
    rfl
  refine ⟨.ofInt t.epochMillis, Timestamp.write t, ?_, rfl,
    fun noLeap => ⟨exact, fromNumber noLeap⟩, ⟨?_, fun inRange => ⟨_, fromText inRange⟩⟩,
    fromText, ?_, ?_⟩
  · rw [asNumber_result]
    exact if_pos finite
  · rintro ⟨u, accepted⟩
    by_contra outside
    rw [refused outside] at accepted
    cases accepted
  · intro outside
    exact ⟨Coercion.apply_toDate_write_of_outside outside, _, refused outside, rfl, rfl, rfl, rfl⟩
  · intro noLeap inRange
    rw [fromText inRange, fromNumber noLeap]

/-- 1969-07-20T20:17:40.123456789Z. -/
def moonLanding : Instant := ⟨-14182940, 123456789, by decide, by decide, by decide, by decide⟩

/-- 1972-06-30T23:59:60.500Z. -/
def leapSecond : Instant := ⟨78796799, 1500000000, by decide, by decide, by decide, by decide⟩

/-- Half a second into the year 10000. -/
def farFuture : Instant := ⟨253402300800, 500000000, by decide, by decide, by decide, by decide⟩

theorem write_eq_of_asText {t : Instant} {p : Path} {s : σ} {text : String}
    (written : (asText.validate (.date t) p s).result = .success text) :
    Timestamp.write t = text :=
  Outcome.success.inj written

theorem moonLanding_there_and_back :
    (∃ x, (asNumber.validate (.date moonLanding) .root ()).result = .success x ∧
      x.smallWhole? = some (-14182939877) ∧
      (asDate.validate (.number x) .root ()).result = .success moonLanding.cut) ∧
    (asText.validate (.date moonLanding) .root ()).result = .success "1969-07-20T20:17:40.123Z" ∧
    (asDate.validate (.text "1969-07-20T20:17:40.123Z") .root ()).result =
      .success moonLanding.cut ∧
    (asText.validate (.date leapSecond) .root ()).result = .success "1972-06-30T23:59:60.500Z" ∧
    (asDate.validate (.text "1972-06-30T23:59:60.500Z") .root ()).result =
      .success leapSecond.cut ∧
    (asText.validate (.date farFuture) .root ()).result = .success "+10000-01-01T00:00:00.500Z" ∧
    ∃ e, (asDate.validate (.text "+10000-01-01T00:00:00.500Z") .root ()).result = .fail e ∧
      e.got = some "string" := by
  obtain ⟨x, text, number, written, fromNumber, _, fromText, _, _⟩ :=
    date_there_and_back moonLanding .root ()
  obtain ⟨_, leapText, _, leapWritten, _, _, fromLeapText, _, _⟩ :=
    date_there_and_back leapSecond .root ()
  obtain ⟨_, farText, _, farWritten, _, _, _, refused, _⟩ := date_there_and_back farFuture .root ()
  obtain rfl : "1969-07-20T20:17:40.123Z" = text :=
    Eq.trans (by decide +kernel) (write_eq_of_asText written)
  obtain rfl : "1972-06-30T23:59:60.500Z" = leapText :=
    Eq.trans (by decide +kernel) (write_eq_of_asText leapWritten)
  obtain rfl : "+10000-01-01T00:00:00.500Z" = farText :=
    Eq.trans (by decide +kernel) (write_eq_of_asText farWritten)
  obtain ⟨exact, back⟩ := fromNumber (by decide)
  obtain ⟨_, e, failed, _, _, _, got⟩ := refused (by decide)
  exact ⟨⟨x, number, exact, back⟩, written, fromText (by decide), leapWritten,
    fromLeapText (by decide), farWritten, e, failed, got⟩

end Schema

end Conform
