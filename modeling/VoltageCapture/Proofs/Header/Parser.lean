import VoltageCapture.Proofs.Error
import VoltageCapture.Proofs.Header.Line
import VoltageCapture.Proofs.Text.Pieces

/-!
# Header text is read as it is written

What the fields of a header are after text was read: of a repeated key the last line gives
the value (`value?_of_foldlM`).  A header that was read is well formed (`WellFormed`), and a
well-formed header is read back from the text that it is written as (`parse_render`).
-/

namespace VoltageCapture

variable {header result : Header} {key other value text : String} {fields : List Field}
  {lines : List (List Char × List Char)}

/-! ## Setting fields -/

namespace Header

theorem mem_setField {field : Field} (hmem : field ∈ setField key value fields) :
    field = ⟨key, value⟩ ∨ field ∈ fields := by
  induction fields with
  | nil => exact Or.inl (List.mem_singleton.mp hmem)
  | cons first fields ih =>
      rw [setField] at hmem
      split at hmem
      · rcases List.mem_cons.mp hmem with rfl | hrest
        · exact Or.inl rfl
        · exact Or.inr (List.mem_cons_of_mem _ hrest)
      · rcases List.mem_cons.mp hmem with rfl | hrest
        · exact Or.inr List.mem_cons_self
        · exact (ih hrest).imp_right (List.mem_cons_of_mem _)

theorem setField_of_not_mem (hnew : key ∉ fields.map (·.key)) :
    setField key value fields = fields ++ [⟨key, value⟩] := by
  induction fields with
  | nil => rfl
  | cons first fields ih =>
      rw [List.map_cons, List.mem_cons, not_or] at hnew
      rw [setField, if_neg (Ne.symm hnew.1), ih hnew.2, List.cons_append]

theorem keys_setField (key value : String) (fields : List Field) :
    (setField key value fields).map (·.key) =
      if key ∈ fields.map (·.key) then fields.map (·.key) else fields.map (·.key) ++ [key] := by
  induction fields with
  | nil => rfl
  | cons first fields ih =>
      rw [setField]
      by_cases hsame : first.key = key
      · rw [if_pos hsame, List.map_cons, List.map_cons, hsame, if_pos List.mem_cons_self]
      · rw [if_neg hsame, List.map_cons, List.map_cons, ih]
        simp only [List.mem_cons, Ne.symm hsame, false_or]
        split
        · rfl
        · rfl

theorem nodup_keys_setField (hnodup : (fields.map (·.key)).Nodup) :
    ((setField key value fields).map (·.key)).Nodup := by
  rw [keys_setField]
  split
  · exact hnodup
  · next hnew =>
    refine List.nodup_append.mpr ⟨hnodup, List.pairwise_singleton _ _, ?_⟩
    rintro found hfound last hlast rfl
    rw [List.mem_singleton] at hlast
    exact hnew (hlast ▸ hfound)

theorem value?_cons (field : Field) (fields : List Field) (key : String) :
    (Header.mk (field :: fields)).value? key =
      if field.key = key then some field.value else (Header.mk fields).value? key := by
  unfold value?
  rw [List.find?_cons]
  by_cases hsame : field.key = key
  · rw [if_pos hsame, beq_iff_eq.mpr hsame, Option.map_some]
  · rw [if_neg hsame, beq_eq_false_iff_ne.mpr hsame]

/-- A field that was set has the new value, the others have kept theirs. -/
theorem value?_set (header : Header) (key value other : String) :
    (header.set key value).value? other =
      if key = other then some value else header.value? other := by
  obtain ⟨fields⟩ := header
  unfold Header.set
  induction fields with
  | nil => rw [setField, value?_cons]
  | cons first fields ih =>
      rw [setField]
      split
      · next hfirst =>
        rw [value?_cons, value?_cons, hfirst]
        split
        · rfl
        · rfl
      · next hfirst =>
        rw [value?_cons, value?_cons, ih]
        by_cases hother : first.key = other
        · rw [if_pos hother, if_pos hother, if_neg fun heq => hfirst (hother.trans heq.symm)]
        · rw [if_neg hother, if_neg hother]

theorem value?_of_mem (hnodup : header.keys.Nodup) {field : Field} (hfield : field ∈ header.fields) :
    header.value? field.key = some field.value := by
  obtain ⟨fields⟩ := header
  induction fields with
  | nil => exact absurd hfield List.not_mem_nil
  | cons first fields ih =>
      obtain ⟨hfirst, hrest⟩ := List.nodup_cons.mp hnodup
      rw [value?_cons]
      rcases List.mem_cons.mp hfield with rfl | hmem
      · rw [if_pos rfl]
      · have hother : first.key ≠ field.key := by
          intro heq
          exact hfirst (List.mem_map.mpr ⟨field, hmem, heq.symm⟩)
        rw [if_neg hother, ih hrest hmem]

theorem exists_mem_of_value? (hvalue : header.value? key = some value) :
    ∃ field ∈ header.fields, field.key = key ∧ field.value = value := by
  obtain ⟨field, hfind, hsame⟩ := Option.map_eq_some_iff.mp hvalue
  exact ⟨field, List.mem_of_find?_eq_some hfind, by simpa using List.find?_some hfind, hsame⟩

theorem of_unsigned64 {number : Nat} (hnumber : header.unsigned64 key = .ok number) :
    ∃ value, header.value? key = some value ∧ Text.unsigned64? value = some number := by
  simp only [unsigned64, parsed, Header.value, bind_eq_ok] at hnumber
  obtain ⟨value, hvalue, hparsed⟩ := hnumber
  split at hvalue
  · next found hfound =>
    obtain rfl := Except.ok.inj hvalue
    split at hparsed
    · next result hresult => exact ⟨found, hfound, Except.ok.inj hparsed ▸ hresult⟩
    · simp at hparsed
  · simp at hvalue

/-! ## Reading lines -/

theorem addLine_eq_ok {line : List Char × List Char} :
    header.addLine line = .ok result ↔
      isAscii line.1 = true ∧ result = header.set (String.ofList line.1) (String.ofList line.2) := by
  unfold addLine
  split
  · next hascii => simp [hascii, eq_comm]
  · next hascii => simp [hascii]

/-- The value that some lines give a key, where it had the value `found` ahead of them: the
last line with the key counts. -/
def lastValue (key : String) (found : Option String) (lines : List (List Char × List Char)) :
    Option String :=
  lines.foldl
    (fun found line => if String.ofList line.1 = key then some (String.ofList line.2) else found)
    found

/-- Of a repeated key the last line gives the value. -/
theorem value?_of_foldlM (hread : lines.foldlM addLine header = .ok result) (key : String) :
    result.value? key = lastValue key (header.value? key) lines := by
  induction lines generalizing header with
  | nil =>
      rw [List.foldlM_nil, pure_eq_ok] at hread
      rw [hread]
      rfl
  | cons line lines ih =>
      rw [List.foldlM_cons, bind_eq_ok] at hread
      obtain ⟨next, hnext, hrest⟩ := hread
      obtain ⟨_, rfl⟩ := addLine_eq_ok.mp hnext
      rw [ih hrest, value?_set, lastValue, lastValue, List.foldl_cons]

theorem lastValue_of_none (found : Option String)
    (hnone : ∀ line ∈ lines, String.ofList line.1 ≠ key) : lastValue key found lines = found := by
  induction lines generalizing found with
  | nil => rfl
  | cons line lines ih =>
      have hrest := fun line hline => hnone line (List.mem_cons_of_mem _ hline)
      rw [lastValue, List.foldl_cons, if_neg (hnone line List.mem_cons_self)]
      exact ih found hrest

theorem lastValue_of_single {before after : List (List Char × List Char)}
    {line : List Char × List Char} (found : Option String) (hline : String.ofList line.1 = key)
    (hafter : ∀ other ∈ after, String.ofList other.1 ≠ key) :
    lastValue key found (before ++ line :: after) = some (String.ofList line.2) := by
  rw [lastValue, List.foldl_append, List.foldl_cons, if_pos hline]
  exact lastValue_of_none _ hafter

/-! ## Well-formed headers -/

end Header

/-- A field that can be read back from the line that it is written as. -/
structure Field.WellFormed (field : Field) : Prop where
  isKey : Field.IsKey field.key.toList
  isAscii : Header.isAscii field.key.toList = true
  trimmed : Text.Trimmed field.value.toList
  single : '\n' ∉ field.value.toList

/-- A header whose fields can be read back from the lines that they are written as. -/
structure Header.WellFormed (header : Header) : Prop where
  fields : ∀ field ∈ header.fields, field.WellFormed
  nodup : header.keys.Nodup

namespace Header

theorem WellFormed.set (hheader : header.WellFormed) (hfield : Field.WellFormed ⟨key, value⟩) :
    (header.set key value).WellFormed := by
  refine ⟨?_, nodup_keys_setField hheader.nodup⟩
  intro field hmem
  rcases mem_setField hmem with rfl | hold
  · exact hfield
  · exact hheader.fields field hold

theorem mem_fields_of_foldlM (hread : lines.foldlM addLine header = .ok result) {field : Field}
    (hfield : field ∈ result.fields) :
    field ∈ header.fields ∨ ∃ line ∈ lines, isAscii line.1 = true ∧
      field = ⟨String.ofList line.1, String.ofList line.2⟩ := by
  induction lines generalizing header with
  | nil =>
      rw [List.foldlM_nil, pure_eq_ok] at hread
      exact Or.inl (hread ▸ hfield)
  | cons line lines ih =>
      rw [List.foldlM_cons, bind_eq_ok] at hread
      obtain ⟨next, hnext, hrest⟩ := hread
      obtain ⟨hascii, rfl⟩ := addLine_eq_ok.mp hnext
      rcases ih hrest with hold | ⟨other, hother, hfound⟩
      · rcases mem_setField hold with hnew | hold
        · exact Or.inr ⟨line, List.mem_cons_self, hascii, hnew⟩
        · exact Or.inl hold
      · exact Or.inr ⟨other, List.mem_cons_of_mem _ hother, hfound⟩

theorem nodup_keys_of_foldlM (hread : lines.foldlM addLine header = .ok result)
    (hnodup : header.keys.Nodup) : result.keys.Nodup := by
  induction lines generalizing header with
  | nil =>
      rw [List.foldlM_nil, pure_eq_ok] at hread
      exact hread ▸ hnodup
  | cons line lines ih =>
      rw [List.foldlM_cons, bind_eq_ok] at hread
      obtain ⟨next, hnext, hrest⟩ := hread
      obtain ⟨_, rfl⟩ := addLine_eq_ok.mp hnext
      exact ih hrest (nodup_keys_setField hnodup)

/-- Every field of a header that was read stands on a line of the text. -/
theorem exists_line_of_parse (hparse : parse text = .ok header) {field : Field}
    (hfield : field ∈ header.fields) :
    ∃ line ∈ Text.pieces '\n' text.toList,
      Field.ofLine? line = some (field.key.toList, field.value.toList) ∧
        isAscii field.key.toList = true := by
  rcases mem_fields_of_foldlM hparse hfield with hnone | ⟨⟨key, value⟩, hline, hascii, rfl⟩
  · exact absurd hnone List.not_mem_nil
  · obtain ⟨line, hmem, hparts⟩ := List.mem_filterMap.mp hline
    rw [String.toList_ofList, String.toList_ofList]
    exact ⟨line, hmem, hparts, hascii⟩

/-- A header that was read is well formed. -/
theorem wellFormed_of_parse (hparse : parse text = .ok header) : header.WellFormed := by
  refine ⟨?_, nodup_keys_of_foldlM hparse List.nodup_nil⟩
  intro field hfield
  obtain ⟨line, hmem, hparts, hascii⟩ := exists_line_of_parse hparse hfield
  refine ⟨Field.isKey_of_ofLine? hparts, hascii, Field.trimmed_of_ofLine? hparts, ?_⟩
  -- a value with a line feed would have been two lines
  intro hfeed
  exact Text.not_mem_of_mem_pieces hmem (Field.mem_of_ofLine? hparts (Or.inr hfeed))

/-! ## Writing a header and reading it -/

end Header

/-- The line that a field is written as, without its line feed. -/
def Field.written (field : Field) : List Char :=
  field.key.toList ++ ' ' :: field.value.toList

theorem Field.WellFormed.not_mem_written {field : Field} (hfield : field.WellFormed) :
    '\n' ∉ field.written := by
  intro hmem
  rcases List.mem_append.mp hmem with hkey | hrest
  · exact absurd (hfield.isKey.isBlank_eq _ hkey) (by decide)
  · rcases List.mem_cons.mp hrest with hblank | hvalue
    · exact absurd hblank (by decide)
    · exact hfield.single hvalue

theorem Field.WellFormed.ofLine?_written {field : Field} (hfield : field.WellFormed) :
    Field.ofLine? field.written = some (field.key.toList, field.value.toList) :=
  Field.ofLine?_written hfield.isKey hfield.trimmed

theorem Field.wellFormed_of_written {field : Field}
    (hwritten : ofLine? field.written = some (field.key.toList, field.value.toList))
    (hascii : Header.isAscii field.key.toList = true) (hsingle : '\n' ∉ field.value.toList) :
    field.WellFormed :=
  ⟨isKey_of_ofLine? hwritten, hascii, trimmed_of_ofLine? hwritten, hsingle⟩

namespace Header

theorem flatMap_line (fields : List Field) :
    fields.flatMap Field.line = Text.terminated '\n' (fields.map Field.written) := by
  rw [Text.terminated, List.flatMap_map]
  rfl

theorem toList_render (header : Header) :
    header.render.toList = Text.terminated '\n' (header.fields.map Field.written) := by
  rw [render, String.toList_ofList, flatMap_line]

theorem WellFormed.not_mem_written (hheader : header.WellFormed) :
    ∀ line ∈ header.fields.map Field.written, '\n' ∉ line := by
  intro line hline
  obtain ⟨field, hfield, rfl⟩ := List.mem_map.mp hline
  exact (hheader.fields field hfield).not_mem_written

theorem filterMap_ofLine?_written (hfields : ∀ field ∈ fields, field.WellFormed) :
    (fields.map Field.written).filterMap Field.ofLine? =
      fields.map fun field => (field.key.toList, field.value.toList) := by
  induction fields with
  | nil => rfl
  | cons field fields ih =>
      have hrest := ih fun other hother => hfields other (List.mem_cons_of_mem _ hother)
      rw [List.map_cons, List.map_cons,
        List.filterMap_cons_some (hfields field List.mem_cons_self).ofLine?_written, hrest]

/-- The lines of a header that was written are its fields. -/
theorem fieldLines_render (hheader : header.WellFormed) :
    fieldLines header.render.toList =
      header.fields.map fun field => (field.key.toList, field.value.toList) := by
  have hpieces := Text.pieces_terminated hheader.not_mem_written []
  rw [List.append_nil, Text.pieces_of_not_mem List.not_mem_nil] at hpieces
  rw [fieldLines, toList_render, hpieces, List.filterMap_append,
    filterMap_ofLine?_written hheader.fields]
  exact List.append_nil _

theorem foldlM_addLine_fields (hascii : ∀ field ∈ fields, isAscii field.key.toList = true)
    (hnodup : (header.keys ++ fields.map (·.key)).Nodup) :
    (fields.map fun field => (field.key.toList, field.value.toList)).foldlM addLine header =
      .ok ⟨header.fields ++ fields⟩ := by
  induction fields generalizing header with
  | nil =>
      rw [List.append_nil]
      rfl
  | cons field fields ih =>
      have hnew : field.key ∉ header.keys := fun hold =>
        (List.nodup_append.mp hnodup).2.2 _ hold _ List.mem_cons_self rfl
      have hset : header.set field.key field.value = ⟨header.fields ++ [field]⟩ :=
        congrArg Header.mk (setField_of_not_mem hnew)
      have hkeys : (Header.mk (header.fields ++ [field])).keys ++ fields.map (·.key) =
          header.keys ++ (field :: fields).map (·.key) := by
        rw [keys, List.map_append, List.append_assoc]
        rfl
      have hrest := ih (fun other hother => hascii other (List.mem_cons_of_mem _ hother))
        (hkeys ▸ hnodup)
      rw [List.map_cons, List.foldlM_cons, addLine, if_pos (hascii field List.mem_cons_self),
        String.ofList_toList, String.ofList_toList, hset]
      exact hrest.trans (by rw [List.append_assoc]; rfl)

/-- **A well-formed header is read back from its text.** -/
theorem parse_render (hheader : header.WellFormed) : parse header.render = .ok header := by
  rw [parse, fieldLines_render hheader,
    foldlM_addLine_fields (fun field hfield => (hheader.fields field hfield).isAscii) ?_]
  · rfl
  · exact hheader.nodup

end Header

end VoltageCapture
