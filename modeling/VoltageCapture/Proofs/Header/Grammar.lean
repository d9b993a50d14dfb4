import Mathlib
import VoltageCapture.Proofs.Header.Parser

/-!
# The grammar of header text

A text is a sequence of lines (`Header.IsLines`).  A line is a note, which is blank or a comment, or
it holds a field: a key, and behind some blanks perhaps a value, with blanks around them
(`Field.IsNote`, `Field.Holds`).  `Header.HasFields` puts the fields of a text in a list; the
parser finds the same ones by cutting and trimming (`hasFields_iff`).

What becomes of them is settled by the list alone: the first key that is not ASCII is refused, and
otherwise each key has the place of its first line and the value of its last one.  So a text can be
edited in every way that leaves its fields alone (`Header.Edited`).  `Header.parse_grammar` states
all of this.
-/

namespace VoltageCapture

/-- A text of nothing but blanks. -/
def Text.Blanks (text : List Char) : Prop :=
  ∀ c ∈ text, Text.isBlank c = true

/-! ## Lines -/

namespace Field

variable {line key value : List Char}

/-- A line without a field: there is nothing on it, or a comment. -/
inductive IsNote : List Char → Prop
  | blank {line : List Char} (hblank : Text.Blanks line) : IsNote line
  | comment {lead rest : List Char} (hlead : Text.Blanks lead) : IsNote (lead ++ '#' :: rest)

/-- A line with a field: the key and the value, if there is one, stand apart between blanks. -/
inductive Holds : List Char → List Char → List Char → Prop
  | parts {lead key gap value trail : List Char} (hkey : IsKey key) (hvalue : Text.Trimmed value)
      (hlead : Text.Blanks lead) (hgap : Text.Blanks gap) (htrail : Text.Blanks trail)
      (hapart : value ≠ [] → gap ≠ []) :
      Holds (lead ++ (key ++ gap ++ value) ++ trail) key value

theorem trim_eq_nil_iff : Text.trim line = [] ↔ Text.Blanks line := by
  constructor
  · intro htrim
    obtain ⟨lead, trail, hline, hlead, htrail⟩ := Text.exists_blanks_trim line
    rw [htrim, List.append_nil] at hline
    rw [hline]
    exact List.forall_mem_append.mpr ⟨hlead, htrail⟩
  · intro hblank
    have htrim := Text.trim_of_trimmed .nil hblank (List.forall_mem_nil _)
    rwa [List.append_nil, List.append_nil] at htrim

/-- The comment need not be trimmed: its first character is no blank. -/
theorem exists_trim_comment {lead : List Char} (hlead : Text.Blanks lead) (rest : List Char) :
    ∃ comment, Text.trim (lead ++ '#' :: rest) = '#' :: comment := by
  have hstart : Text.trimStart (lead ++ '#' :: rest) = '#' :: rest := by
    rw [Text.trimStart, List.dropWhile_append_of_pos hlead, List.dropWhile_cons_of_neg (by decide)]
  have hstop : Text.isBlank '#' = false := by decide
  rw [Text.trim, hstart, Text.trimEnd, List.reverse_cons, Text.dropWhile_append_stop hstop,
    List.reverse_append]
  exact ⟨_, rfl⟩

theorem ofLine?_eq_none_iff : ofLine? line = none ↔ IsNote line := by
  constructor
  · intro hnone
    unfold ofLine? at hnone
    split at hnone
    · next htrim => exact .blank (trim_eq_nil_iff.mp htrim)
    · next rest htrim =>
      obtain ⟨lead, trail, hline, hlead, -⟩ := Text.exists_blanks_trim line
      rw [htrim, List.append_assoc, List.cons_append] at hline
      exact hline ▸ .comment hlead
    · simp at hnone
  · rintro (hblank | hlead)
    · rw [ofLine?, trim_eq_nil_iff.mpr hblank]
    · next lead rest =>
      obtain ⟨comment, htrim⟩ := exists_trim_comment hlead rest
      rw [ofLine?, htrim]
      rfl

theorem ofLine?_of_holds (hholds : Holds line key value) : ofLine? line = some (key, value) := by
  obtain ⟨hkey, hvalue, hlead, hgap, htrail, hapart⟩ := hholds
  exact ofLine?_spaced hkey hvalue hlead hgap htrail hapart

/-- A line is the key and the value that are read from it, with blanks around them. -/
theorem holds_of_ofLine? (hline : ofLine? line = some (key, value)) : Holds line key value := by
  have hkey := isKey_of_ofLine? hline
  have hvalue := trimmed_of_ofLine? hline
  unfold ofLine? at hline
  split at hline
  · simp at hline
  · simp at hline
  next c rest _ htrim =>
  simp only [Option.some.injEq, Prod.mk.injEq] at hline
  obtain ⟨hword, hrest⟩ := hline
  obtain ⟨lead, trail, houter, hlead, htrail⟩ := Text.exists_blanks_trim line
  obtain ⟨gap, behind, hinner, hgap, hbehind⟩ :=
    Text.exists_blanks_trim (Text.afterFirstWord (c :: rest))
  rw [hrest] at hinner
  have hsplit : key ++ Text.afterFirstWord (c :: rest) = c :: rest := by
    rw [← hword, Text.firstWord, Text.afterFirstWord, List.takeWhile_append_dropWhile]
  have hapart : value ≠ [] → gap ≠ [] := by
    rintro hne rfl
    obtain ⟨d, more, hcons⟩ := List.exists_cons_of_ne_nil hne
    -- what is behind the key starts with a blank, the value does not
    have hhead := List.head?_dropWhile_not (!Text.isBlank ·) (c :: rest)
    rw [← Text.afterFirstWord, hinner, hcons] at hhead
    simp [hvalue.head d more hcons] at hhead
  have hparts : line = lead ++ (key ++ gap ++ value) ++ (behind ++ trail) := by
    rw [houter, htrim, ← hsplit, hinner]
    simp only [List.append_assoc]
  rw [hparts]
  exact .parts hkey hvalue hlead hgap (List.forall_mem_append.mpr ⟨hbehind, htrail⟩) hapart

/-- Blanks at the end of a line change nothing. -/
theorem ofLine?_append_blanks {trail : List Char} (htrail : Text.Blanks trail) (line : List Char) :
    ofLine? (line ++ trail) = ofLine? line := by
  obtain ⟨lead, behind, hline, hlead, hbehind⟩ := Text.exists_blanks_trim line
  have htrim : Text.trim (line ++ trail) = Text.trim line := by
    conv => lhs; rw [hline]
    rw [List.append_assoc]
    exact Text.trim_of_trimmed (Text.trimmed_trim line) hlead
      (List.forall_mem_append.mpr ⟨hbehind, htrail⟩)
  rw [ofLine?, ofLine?, htrim]

end Field

namespace Header

variable {text line : List Char} {lines : List (List Char)}
  {fields : List (List Char × List Char)} {header : Header}

/-- The lines of a text: each ends at a line feed, or at a carriage return and a line feed, but for
the last one, which may end with the text. -/
inductive IsLines : List Char → List (List Char) → Prop
  | nil : IsLines [] []
  | last {line : List Char} (hne : line ≠ []) (hsingle : '\n' ∉ line) : IsLines line [line]
  | feed {line rest : List Char} {lines : List (List Char)} (hsingle : '\n' ∉ line)
      (hreturn : line.getLast? ≠ some '\r') (hrest : IsLines rest lines) :
      IsLines (line ++ '\n' :: rest) (line :: lines)
  | returnFeed {line rest : List Char} {lines : List (List Char)} (hsingle : '\n' ∉ line)
      (hrest : IsLines rest lines) : IsLines (line ++ '\r' :: '\n' :: rest) (line :: lines)

/-- The fields that some lines hold, in order. -/
inductive FieldsOn : List (List Char) → List (List Char × List Char) → Prop
  | nil : FieldsOn [] []
  | note {line : List Char} {lines : List (List Char)} {fields : List (List Char × List Char)}
      (hline : Field.IsNote line) (hrest : FieldsOn lines fields) : FieldsOn (line :: lines) fields
  | field {line key value : List Char} {lines : List (List Char)}
      {fields : List (List Char × List Char)} (hline : Field.Holds line key value)
      (hrest : FieldsOn lines fields) : FieldsOn (line :: lines) ((key, value) :: fields)

/-- The keys and the values on the lines of a text, in order. -/
def HasFields (text : List Char) (fields : List (List Char × List Char)) : Prop :=
  ∃ lines, IsLines text lines ∧ FieldsOn lines fields

theorem fieldsOn_iff : FieldsOn lines fields ↔ lines.filterMap Field.ofLine? = fields := by
  constructor
  · intro hfields
    induction hfields with
    | nil => rfl
    | note hline _ ih =>
        rw [List.filterMap_cons_none (Field.ofLine?_eq_none_iff.mpr hline), ih]
    | field hline _ ih =>
        rw [List.filterMap_cons_some (Field.ofLine?_of_holds hline), ih]
  · rintro rfl
    induction lines with
    | nil => exact .nil
    | cons line lines ih =>
        cases hline : Field.ofLine? line with
        | none =>
            rw [List.filterMap_cons_none hline]
            exact .note (Field.ofLine?_eq_none_iff.mp hline) ih
        | some field =>
            rw [List.filterMap_cons_some hline]
            exact .field (Field.holds_of_ofLine? hline) ih

/-! ## Fields of a text in parts -/

theorem fieldLines_of_not_mem (hsingle : '\n' ∉ line) :
    fieldLines line = (Field.ofLine? line).toList := by
  rw [fieldLines, Text.pieces_of_not_mem hsingle]
  cases hline : Field.ofLine? line with
  | none => rw [List.filterMap_cons_none hline]; rfl
  | some field => rw [List.filterMap_cons_some hline]; rfl

theorem fieldLines_append_feed (front back : List Char) :
    fieldLines (front ++ '\n' :: back) = fieldLines front ++ fieldLines back := by
  rw [fieldLines, Text.pieces_append_separator, List.filterMap_append, fieldLines, fieldLines]

/-- Blanks at the end of a text change nothing. -/
theorem fieldLines_append_blanks {trail : List Char} (htrail : Text.Blanks trail)
    (hsingle : '\n' ∉ trail) (text : List Char) : fieldLines (text ++ trail) = fieldLines text := by
  obtain ⟨parts, last, first, others, -, htext, hmore, hboth⟩ := Text.pieces_append '\n' text trail
  rw [Text.pieces_of_not_mem hsingle, List.cons.injEq] at hmore
  obtain ⟨rfl, rfl⟩ := hmore
  rw [fieldLines, fieldLines, hboth, htext, List.filterMap_append, List.filterMap_append,
    List.filterMap_cons, List.filterMap_cons, Field.ofLine?_append_blanks htrail]

theorem blanks_return : Text.Blanks ['\r'] :=
  List.forall_mem_singleton.mpr (by decide)

theorem fieldLines_append_return (text : List Char) :
    fieldLines (text ++ ['\r']) = fieldLines text :=
  fieldLines_append_blanks blanks_return (by decide) text

theorem fieldLines_of_isLines (hlines : IsLines text lines) :
    fieldLines text = lines.filterMap Field.ofLine? := by
  induction hlines with
  | nil => exact fieldLines_of_not_mem List.not_mem_nil
  | last _ hsingle => rw [fieldLines, Text.pieces_of_not_mem hsingle]
  | feed hsingle _ _ ih =>
      rw [fieldLines_append_feed, ih, fieldLines, Text.pieces_of_not_mem hsingle,
        ← List.filterMap_append, List.singleton_append]
  | @returnFeed line rest lines hsingle _ ih =>
      have hend : line ++ '\r' :: '\n' :: rest = (line ++ ['\r']) ++ '\n' :: rest := by
        rw [List.append_assoc, List.singleton_append]
      rw [hend, fieldLines_append_feed, fieldLines_append_return, ih, fieldLines,
        Text.pieces_of_not_mem hsingle, ← List.filterMap_append, List.singleton_append]

/-- The induction is on the length of the text that is left. -/
theorem exists_isLines (text : List Char) : ∃ lines, IsLines text lines := by
  induction hlength : text.length using Nat.strongRecOn generalizing text with
  | ind length ih =>
      by_cases hfeed : '\n' ∈ text
      · obtain ⟨line, rest, rfl, hsingle⟩ := List.eq_append_cons_of_mem hfeed
        have hshort : rest.length < length := by
          rw [← hlength, List.length_append, List.length_cons]
          omega
        obtain ⟨lines, hrest⟩ := ih rest.length hshort rest rfl
        by_cases hreturn : line.getLast? = some '\r'
        · obtain ⟨init, rfl⟩ := List.getLast?_eq_some_iff.mp hreturn
          have hinit : '\n' ∉ init := fun hmem => hsingle (List.mem_append_left _ hmem)
          rw [List.append_assoc, List.singleton_append]
          exact ⟨_, .returnFeed hinit hrest⟩
        · exact ⟨_, .feed hsingle hreturn hrest⟩
      · by_cases hempty : text = []
        · exact ⟨[], hempty ▸ .nil⟩
        · exact ⟨[text], .last hempty hfeed⟩

/-- **Cutting and trimming finds the fields of a text.** -/
theorem hasFields_iff : HasFields text fields ↔ fields = fieldLines text := by
  constructor
  · rintro ⟨lines, hlines, hfields⟩
    rw [fieldLines_of_isLines hlines, fieldsOn_iff.mp hfields]
  · rintro rfl
    obtain ⟨lines, hlines⟩ := exists_isLines text
    exact ⟨lines, hlines, fieldsOn_iff.mpr (fieldLines_of_isLines hlines).symm⟩

/-! ## What becomes of the fields -/

theorem exists_foldlM_addLine (hascii : ∀ field ∈ fields, isAscii field.1 = true)
    (header : Header) : ∃ result, fields.foldlM addLine header = .ok result := by
  induction fields generalizing header with
  | nil => exact ⟨header, rfl⟩
  | cons field fields ih =>
      have hfirst := hascii field List.mem_cons_self
      have hothers := fun other hother => hascii other (List.mem_cons_of_mem _ hother)
      obtain ⟨result, hresult⟩ := ih hothers
        (header.set (String.ofList field.1) (String.ofList field.2))
      refine ⟨result, ?_⟩
      rw [List.foldlM_cons, addLine_eq_ok.mpr ⟨hfirst, rfl⟩]
      exact hresult

/-- The first key that is not ASCII is refused. -/
theorem foldlM_addLine_of_not_ascii {before after : List (List Char × List Char)}
    {field : List Char × List Char} (hbefore : ∀ other ∈ before, isAscii other.1 = true)
    (hfield : isAscii field.1 = false) (header : Header) :
    (before ++ field :: after).foldlM addLine header =
      .error (.validation (String.ofList field.1) "header keys must be ASCII") := by
  obtain ⟨result, hresult⟩ := exists_foldlM_addLine hbefore header
  have hrefused : result.addLine field =
      .error (.validation (String.ofList field.1) "header keys must be ASCII") := by
    rw [addLine, hfield]
    rfl
  rw [List.foldlM_append, hresult]
  exact congrArg (· >>= fun next => after.foldlM addLine next) hrefused

theorem isAscii_of_foldlM {result : Header} (hread : fields.foldlM addLine header = .ok result) :
    ∀ field ∈ fields, isAscii field.1 = true := by
  induction fields generalizing header with
  | nil => exact List.forall_mem_nil _
  | cons field fields ih =>
      rw [List.foldlM_cons, bind_eq_ok] at hread
      obtain ⟨next, hnext, hrest⟩ := hread
      exact List.forall_mem_cons.mpr ⟨(addLine_eq_ok.mp hnext).1, ih hrest⟩

/-- Each key has the place of its first line.  The induction is on the lines from the last one
backwards, as each adds at most one key behind those of the lines ahead of it. -/
theorem keys_of_foldlM (hread : fields.foldlM addLine empty = .ok header) :
    header.keys = (fields.map fun field => String.ofList field.1).eraseDups := by
  induction fields using List.reverseRecOn generalizing header with
  | nil =>
      obtain rfl := Except.ok.inj hread
      rfl
  | append_singleton fields field ih =>
      rw [List.foldlM_append, bind_eq_ok] at hread
      obtain ⟨init, hinit, hlast⟩ := hread
      rw [List.foldlM_cons, bind_eq_ok] at hlast
      obtain ⟨next, hnext, hdone⟩ := hlast
      obtain ⟨-, rfl⟩ := addLine_eq_ok.mp hnext
      obtain rfl := Except.ok.inj hdone
      have hkeys := ih hinit
      rw [keys, Header.set, keys_setField, ← keys, hkeys, List.map_append, List.eraseDups_append]
      simp only [List.mem_eraseDups, List.map_cons, List.map_nil, List.removeAll]
      by_cases hknown : String.ofList field.1 ∈ fields.map fun field => String.ofList field.1
      · rw [if_pos hknown, List.filter_cons_of_neg (by simpa using hknown), List.filter_nil]
        exact (List.append_nil _).symm
      · rw [if_neg hknown, List.filter_cons_of_pos (by simpa using hknown), List.filter_nil]
        rfl

theorem value?_of_last {before after : List (List Char × List Char)}
    {field : List Char × List Char}
    (hread : (before ++ field :: after).foldlM addLine empty = .ok header)
    (hafter : ∀ other ∈ after, other.1 ≠ field.1) :
    header.value? (String.ofList field.1) = some (String.ofList field.2) := by
  rw [value?_of_foldlM hread]
  apply lastValue_of_single _ rfl
  intro other hother hsame
  have hlists := congrArg String.toList hsame
  rw [String.toList_ofList, String.toList_ofList] at hlists
  exact hafter other hother hlists

/-! ## Editing a text -/

/-- The text is empty, or at the start of a line. -/
def StartsLine (front : List Char) : Prop :=
  front = [] ∨ ∃ init, front = init ++ ['\n']

/-- The text is empty, or starts with the end of a line. -/
def EndsLine (back : List Char) : Prop :=
  back = [] ∨ ∃ rest, back = '\n' :: rest

/-- One change to a text that leaves its fields alone. -/
inductive Edited : List Char → List Char → Prop
  /-- A blank line or a comment is put in, ahead of another line. -/
  | note {front line back : List Char} (hfront : StartsLine front) (hline : Field.IsNote line)
      (hsingle : '\n' ∉ line) : Edited (front ++ back) (front ++ (line ++ '\n' :: back))
  /-- A blank line or a comment is put in at the end. -/
  | lastNote {front line : List Char} (hfront : StartsLine front) (hline : Field.IsNote line)
      (hsingle : '\n' ∉ line) : Edited front (front ++ line)
  /-- The last line is ended. -/
  | lastEnd {text : List Char} : Edited text (text ++ ['\n'])
  /-- A carriage return is put ahead of a line feed. -/
  | lineEnd {front back : List Char} :
      Edited (front ++ '\n' :: back) (front ++ '\r' :: '\n' :: back)
  /-- A line with a field has other blanks around the key and the value. -/
  | spacing {front line other back key value : List Char} (hfront : StartsLine front)
      (hline : Field.Holds line key value) (hsingle : '\n' ∉ line)
      (hother : Field.Holds other key value) (hotherSingle : '\n' ∉ other)
      (hback : EndsLine back) : Edited (front ++ (line ++ back)) (front ++ (other ++ back))

theorem fieldLines_nil : fieldLines [] = [] :=
  fieldLines_of_not_mem List.not_mem_nil

theorem fieldLines_append_of_startsLine {front : List Char} (hfront : StartsLine front)
    (back : List Char) : fieldLines (front ++ back) = fieldLines front ++ fieldLines back := by
  obtain rfl | ⟨init, rfl⟩ := hfront
  · rw [fieldLines_nil, List.nil_append, List.nil_append]
  · rw [List.append_assoc, List.singleton_append, fieldLines_append_feed, fieldLines_append_feed,
      fieldLines_nil, List.append_nil]

theorem fieldLines_append_of_endsLine {back : List Char} (hback : EndsLine back)
    (front : List Char) : fieldLines (front ++ back) = fieldLines front ++ fieldLines back := by
  obtain rfl | ⟨rest, rfl⟩ := hback
  · rw [fieldLines_nil, List.append_nil, List.append_nil]
  · have hempty : fieldLines ('\n' :: rest) = fieldLines rest := by
      have hsplit := fieldLines_append_feed [] rest
      rwa [List.nil_append, fieldLines_nil, List.nil_append] at hsplit
    rw [fieldLines_append_feed, hempty]

theorem fieldLines_of_isNote (hline : Field.IsNote line) (hsingle : '\n' ∉ line) :
    fieldLines line = [] := by
  rw [fieldLines_of_not_mem hsingle, Field.ofLine?_eq_none_iff.mpr hline]
  rfl

/-- A change leaves the fields alone. -/
theorem fieldLines_of_edited {edited : List Char} (hedited : Edited text edited) :
    fieldLines edited = fieldLines text := by
  cases hedited with
  | note hfront hline hsingle =>
      rw [fieldLines_append_of_startsLine hfront, fieldLines_append_of_startsLine hfront,
        fieldLines_append_feed, fieldLines_of_isNote hline hsingle, List.nil_append]
  | lastNote hfront hline hsingle =>
      rw [fieldLines_append_of_startsLine hfront, fieldLines_of_isNote hline hsingle,
        List.append_nil]
  | lastEnd => rw [fieldLines_append_feed, fieldLines_nil, List.append_nil]
  | @lineEnd front back =>
      have hend : front ++ '\r' :: '\n' :: back = (front ++ ['\r']) ++ '\n' :: back := by
        rw [List.append_assoc, List.singleton_append]
      rw [hend, fieldLines_append_feed, fieldLines_append_return, fieldLines_append_feed]
  | spacing hfront hline hsingle hother hotherSingle hback =>
      rw [fieldLines_append_of_startsLine hfront, fieldLines_append_of_startsLine hfront,
        fieldLines_append_of_endsLine hback, fieldLines_append_of_endsLine hback,
        fieldLines_of_not_mem hsingle, fieldLines_of_not_mem hotherSingle,
        Field.ofLine?_of_holds hline, Field.ofLine?_of_holds hother]

/-- Any number of changes, made or undone, leave the fields alone. -/
theorem fieldLines_of_eqvGen {edited : List Char} (hedited : Relation.EqvGen Edited text edited) :
    fieldLines edited = fieldLines text := by
  induction hedited with
  | rel _ _ hedited => exact fieldLines_of_edited hedited
  | refl _ => rfl
  | symm _ _ _ ih => exact ih.symm
  | trans _ _ _ _ _ hfirst hsecond => exact hsecond.trans hfirst

/-- **The parser accepts exactly its grammar.**  Every text has its fields.  It is read as a header
if all their keys are ASCII, and otherwise refused for the first key that is not.  The header has
each key once, in the order of their first lines, with the value of its last line.  Notes, the ends
of lines and the blanks around keys and values can be changed at will. -/
theorem parse_grammar (text : String) :
    ∃ fields, (∀ others, HasFields text.toList others ↔ others = fields) ∧
      ((∃ header, parse text = .ok header) ↔ ∀ field ∈ fields, isAscii field.1 = true) ∧
      (∀ before field after, fields = before ++ field :: after →
        (∀ other ∈ before, isAscii other.1 = true) → isAscii field.1 = false →
          parse text =
            .error (.validation (String.ofList field.1) "header keys must be ASCII")) ∧
      (∀ header, parse text = .ok header →
        header.keys = (fields.map fun field => String.ofList field.1).eraseDups ∧
        ∀ before field after, fields = before ++ field :: after →
          (∀ other ∈ after, other.1 ≠ field.1) →
            header.value? (String.ofList field.1) = some (String.ofList field.2)) ∧
      ∀ edited : String, Relation.EqvGen Edited text.toList edited.toList →
        parse edited = parse text := by
  refine ⟨fieldLines text.toList, fun others => hasFields_iff, ?_, ?_, ?_, ?_⟩
  · constructor
    · rintro ⟨header, hread⟩
      exact isAscii_of_foldlM hread
    · intro hascii
      exact exists_foldlM_addLine hascii empty
  · intro before field after hfields hbefore hfield
    rw [parse, hfields]
    exact foldlM_addLine_of_not_ascii hbefore hfield empty
  · intro header hread
    refine ⟨keys_of_foldlM hread, ?_⟩
    intro before field after hfields hafter
    rw [parse, hfields] at hread
    exact value?_of_last hread hafter
  · intro edited hedited
    rw [parse, parse, fieldLines_of_eqvGen hedited]

/-- The key `B` comes first and is set twice, among notes, line ends and blanks of all kinds. -/
example : (parse "  # note\nB\t2 \r\n\r\n\u3000A  one two\nB").toOption.map (·.fields) =
    some [⟨"B", ""⟩, ⟨"A", "one two"⟩] := by
  cbv

end Header

end VoltageCapture
