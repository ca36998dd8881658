import Conform.Proofs.Pattern.Standard
import Conform.Schema.Build
import Conform.Schema.Parse

/-!
# Texts of a format

A schema of a format accepts the texts in which its pattern occurs, unchanged, and rejects every
other text with a single issue.  What the patterns describe is told by `Pattern.IsUuid` and
`Pattern.IsAddress`.
-/

set_option autoImplicit false

namespace Conform.Schema

open Pattern

variable {σ : Type}

theorem format_result (q : Pattern) (message text : String) (p : Path) (s : σ) :
    ((format q message).validate (.text text) p s).result =
      if q.occursIn text then .success text else .fail (.bare p message refinementCode) := by
  have accepted :
      (((Schema.text .empty : Schema σ .text).validator (.text text) p) s).result = .success text :=
    rfl
  rw [validate, format, validator, Validator.refine_result, accepted]
  rfl

theorem format_success_iff (q : Pattern) (message text : String) (p : Path) (s : σ) :
    ((format q message).validate (.text text) p s).result = .success text ↔
      q.occursIn text = true := by
  rw [format_result]
  split
  · next occurs => exact ⟨fun _ => occurs, fun _ => rfl⟩
  · next absent => exact ⟨nofun, fun occurs => absurd occurs absent⟩

/-- Uuids are the texts of 36 characters with hyphens at their places and hexadecimal digits at all
others.  Mail addresses are the texts with one `@`, a name before it and a host after it whose last
dot is followed by two letters or more.  Whatever is accepted has graphic characters of ASCII only,
and whatever is not is rejected with one issue.

The patterns that are read from the written forms describe the same texts. -/
theorem formats_follow_grammar (message : Option String) (text : String) (p : Path) (s : σ) :
    (((uuid message).validate (.text text) p s).result = .success text ↔ IsUuid text.toList) ∧
      (((email message).validate (.text text) p s).result = .success text ↔
        IsAddress text.toList) ∧
      (¬ IsUuid text.toList → ((uuid message).validate (.text text) p s).result =
        .fail (.bare p (message.getD "Expecting string to be a valid uuid") refinementCode)) ∧
      (¬ IsAddress text.toList → ((email message).validate (.text text) p s).result =
        .fail (.bare p (message.getD "Expecting string to be a valid email address")
          refinementCode)) ∧
      (IsUuid text.toList ∨ IsAddress text.toList → ∀ c ∈ text.toList,
        33 ≤ c.toNat ∧ c.toNat ≤ 126 ∧ Unicode.isWhiteSpace c = false) ∧
      (∃ q, read? uuidWritten = some q ∧ (q.occursIn text = true ↔ IsUuid text.toList)) ∧
      ∃ q, read? emailWritten = some q ∧ (q.occursIn text = true ↔ IsAddress text.toList) := by
  refine ⟨?_, ?_, ?_, ?_, ?_, ?_, ?_⟩
  · exact (format_success_iff _ _ text p s).trans (occursIn_uuid_iff text)
  · exact (format_success_iff _ _ text p s).trans (occursIn_email_iff text)
  · intro other
    rw [uuid, format_result, if_neg (mt (occursIn_uuid_iff text).mp other)]
  · intro other
    rw [email, format_result, if_neg (mt (occursIn_email_iff text).mp other)]
  · intro accepted c member
    have graphic : IsGraphic c := accepted.elim (·.isGraphic c member) (·.isGraphic c member)
    exact ⟨graphic.1, graphic.2, graphic.isWhiteSpace⟩
  · obtain ⟨q, read, describes⟩ := exists_read?_uuidWritten
    exact ⟨q, read, describes text⟩
  · obtain ⟨q, read, describes⟩ := exists_read?_emailWritten
    exact ⟨q, read, describes text⟩

/-- A line break at the end of an address is not passed over. -/
theorem addressLine_follows_grammar :
    IsAddress "ada.l@mail.example.org".toList ∧ ¬ IsAddress "ada.l@mail.example.org\n".toList ∧
      ((email none : Schema Unit .text).validate (.text "ada.l@mail.example.org") .root ()).result =
        .success "ada.l@mail.example.org" ∧
      ((email none : Schema Unit .text).validate (.text "ada.l@mail.example.org\n") .root
        ()).result = .fail ⟨.root, "Expecting string to be a valid email address", "refinement",
          none, none⟩ ∧
      ∀ c ∈ "ada.l@mail.example.org".toList, 33 ≤ c.toNat ∧ c.toNat ≤ 126 ∧
        Unicode.isWhiteSpace c = false := by
  have address : IsAddress "ada.l@mail.example.org".toList := (occursIn_email_iff _).mp (by decide)
  have line : ¬ IsAddress "ada.l@mail.example.org\n".toList :=
    mt (occursIn_email_iff _).mpr (by decide)
  obtain ⟨_, accepted, _, _, graphic, _⟩ :=
    formats_follow_grammar none "ada.l@mail.example.org" .root ()
  obtain ⟨_, _, _, rejected, _⟩ := formats_follow_grammar none "ada.l@mail.example.org\n" .root ()
  exact ⟨address, line, accepted.mpr address, rejected line, graphic (.inr address)⟩

end Conform.Schema
