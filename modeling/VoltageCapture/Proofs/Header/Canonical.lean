import Mathlib
import VoltageCapture.Proofs.Header.Parser

/-!
# Header text is canonical

A header changes in three ways: it is read from a text, a field is erased, or a field is set.
As long as the fields that are set fit on a line of their own, none of this leads out of the
well-formed headers (`Made.wellFormed`), and every well-formed header can be reached
(`made_iff_wellFormed`).  So a header can be written and read back whatever was done to it, and
its text says all there is to know about it: headers with the same text have the same fields
(`fields_eq_of_render_eq`).  This is why headers may be compared by their text.
-/

namespace VoltageCapture.Header

variable {header other : Header} {key value : String}

/-- A header that was read from a text, or that comes from such a header by erasing fields and
by setting fields that fit on a line. -/
inductive Made : Header → Prop where
  | parsed {text : String} {header : Header} (hparse : parse text = .ok header) : Made header
  | erased {header : Header} (hmade : Made header) (key : String) : Made (header.erase key)
  | changed {header : Header} {key value : String} (hmade : Made header)
    (hfield : Field.WellFormed ⟨key, value⟩) : Made (header.set key value)

/-! ## What erasing keeps -/

theorem keys_erase (header : Header) (key : String) :
    (header.erase key).keys = header.keys.filter (· != key) := by
  unfold keys erase
  rw [List.filter_map]
  rfl

theorem WellFormed.erase (hheader : header.WellFormed) (key : String) :
    (header.erase key).WellFormed := by
  refine ⟨?_, ?_⟩
  · intro field hfield
    exact hheader.fields field (List.mem_filter.mp hfield).1
  · rw [keys_erase]
    exact hheader.nodup.filter _

/-! ## Every header that was made is well formed -/

theorem Made.wellFormed (hmade : header.Made) : header.WellFormed := by
  induction hmade with
  | parsed hparse => exact wellFormed_of_parse hparse
  | erased _ key ih => exact ih.erase key
  | changed _ hfield ih => exact ih.set hfield

/-- There are no other well-formed headers: each of them can be read from its own text. -/
theorem made_iff_wellFormed : header.Made ↔ header.WellFormed :=
  ⟨Made.wellFormed, fun hheader => .parsed (parse_render hheader)⟩

/-! ## The text of a header tells its fields -/

theorem beq_iff_render_eq : (header == other) = true ↔ header.render = other.render := by
  show (header.render == other.render) = true ↔ header.render = other.render
  exact beq_iff_eq

theorem fields_eq_of_render_eq (hheader : header.WellFormed) (hother : other.WellFormed)
    (hrender : header.render = other.render) : header.fields = other.fields := by
  have hread : Except.ok header = Except.ok (ε := Error) other := calc
    Except.ok header = parse header.render := (parse_render hheader).symm
    _ = parse other.render := by rw [hrender]
    _ = .ok other := parse_render hother
  rw [Except.ok.inj hread]

/-- **Header text is a fixed point of writing and reading.**  Whatever was done to a header, its
keys are distinct and its text is read as the same fields in the same order.  Such headers have
the same text exactly if they have the same fields. -/
theorem canonical_of_made (hmade : header.Made) :
    header.keys.Nodup ∧ parse header.render = .ok header ∧
      ∀ {other : Header}, other.Made →
        ((header == other) = true ↔ header.fields = other.fields) := by
  have hheader := hmade.wellFormed
  refine ⟨hheader.nodup, parse_render hheader, ?_⟩
  intro other hother
  rw [beq_iff_render_eq]
  constructor
  · exact fields_eq_of_render_eq hheader hother.wellFormed
  · intro hfields
    rw [render, hfields, render]

/-- A text with a comment, a repeated key and the end of a line in two characters; a field is
erased from it, and one set whose value has blanks and a `#` inside. -/
theorem canonical_of_made_edited :
    ∃ read, parse "A 1\n# note\nB   2\r\nA 3" = .ok read ∧
      let edited := (read.erase "B").set "C" "x \u3000\r # y"
      parse edited.render = .ok edited ∧ edited.fields = [⟨"A", "3"⟩, ⟨"C", "x \u3000\r # y"⟩] := by
  have hread : parse "A 1\n# note\nB   2\r\nA 3" = .ok ⟨[⟨"A", "3"⟩, ⟨"B", "2"⟩]⟩ := by
    cbv
  have hfield : Field.WellFormed ⟨"C", "x \u3000\r # y"⟩ :=
    Field.wellFormed_of_written (by cbv) (by decide) (by decide)
  have hedited := canonical_of_made (((Made.parsed hread).erased "B").changed hfield)
  exact ⟨_, hread, hedited.2.1, by cbv⟩

end VoltageCapture.Header
