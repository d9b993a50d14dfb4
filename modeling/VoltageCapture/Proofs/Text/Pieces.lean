import VoltageCapture.Text.Pieces

/-!
# Cutting and joining lines

A list is cut at a separator (`Text.pieces`) and written with one behind each piece
(`Text.terminated`).  The two undo each other: `pieces_terminated` cuts pieces that were
written, and `of_pieces_eq_append` writes pieces that were cut.  A list of which only the
first pieces are known can be anything behind the last of their separators.  What is added to
a list goes to its last piece, up to the next separator (`pieces_append`).
-/

namespace VoltageCapture.Text

variable {α : Type}

/-- The pieces of a list, each with the separator behind it. -/
def terminated (separator : α) (parts : List (List α)) : List α :=
  parts.flatMap (· ++ [separator])

theorem terminated_cons (separator : α) (first : List α) (parts : List (List α)) :
    terminated separator (first :: parts) = first ++ separator :: terminated separator parts := by
  rw [terminated, List.flatMap_cons, List.append_assoc]
  rfl

theorem terminated_append (separator : α) (parts others : List (List α)) :
    terminated separator (parts ++ others) =
      terminated separator parts ++ terminated separator others :=
  List.flatMap_append

/-! ## Cutting -/

variable [DecidableEq α] {separator : α} {items first rest piece : List α}
  {parts others : List (List α)}

theorem pieces_of_not_mem (hnone : separator ∉ items) : pieces separator items = [items] := by
  have hother : ∀ item ∈ items, (item != separator) = true := fun item hitem =>
    bne_iff_ne.mpr fun heq => hnone (heq ▸ hitem)
  have hall : items.dropWhile (· != separator) = [] := by
    rw [← List.append_nil items, List.dropWhile_append_of_pos hother, List.dropWhile_nil]
  rw [pieces]
  split
  · rfl
  · next hfound =>
    rw [hall] at hfound
    simp at hfound

theorem pieces_append_cons (hnone : separator ∉ first) (rest : List α) :
    pieces separator (first ++ separator :: rest) = first :: pieces separator rest := by
  have hother : ∀ item ∈ first, (item != separator) = true := fun item hitem =>
    bne_iff_ne.mpr fun heq => hnone (heq ▸ hitem)
  have hdrop : (first ++ separator :: rest).dropWhile (· != separator) = separator :: rest := by
    rw [List.dropWhile_append_of_pos hother, List.dropWhile_cons_of_neg (by simp)]
  have htake : (first ++ separator :: rest).takeWhile (· != separator) = first := by
    rw [List.takeWhile_append_of_pos hother, List.takeWhile_cons_of_neg (by simp), List.append_nil]
  rw [pieces]
  split
  · next hnil =>
    rw [hdrop] at hnil
    simp at hnil
  · next found more hcons =>
    rw [hdrop, List.cons.injEq] at hcons
    rw [htake, hcons.2]

/-- A list has one piece, or a first piece and those of what follows the first separator. -/
theorem pieces_cases (separator : α) (items : List α) :
    (separator ∉ items ∧ pieces separator items = [items]) ∨
      ∃ first rest, items = first ++ separator :: rest ∧ separator ∉ first ∧
        pieces separator items = first :: pieces separator rest := by
  by_cases hmem : separator ∈ items
  · obtain ⟨first, rest, rfl, hnone⟩ := List.eq_append_cons_of_mem hmem
    exact Or.inr ⟨first, rest, rfl, hnone, pieces_append_cons hnone rest⟩
  · exact Or.inl ⟨hmem, pieces_of_not_mem hmem⟩

theorem pieces_ne_nil (separator : α) (items : List α) : pieces separator items ≠ [] := by
  rcases pieces_cases separator items with ⟨_, hpieces⟩ | ⟨_, _, _, _, hpieces⟩
  · exact hpieces ▸ List.cons_ne_nil _ _
  · exact hpieces ▸ List.cons_ne_nil _ _

theorem pieces_append_of_not_mem (hnone : separator ∉ items) (more : List α) :
    pieces separator (items ++ more) = (pieces separator more).modifyHead (items ++ ·) := by
  rcases pieces_cases separator more with ⟨hmore, hsingle⟩ | ⟨start, rest, rfl, hstart, hcons⟩
  · have hboth : separator ∉ items ++ more := by
      simp only [List.mem_append, hnone, hmore, or_self, not_false_eq_true]
    rw [hsingle, pieces_of_not_mem hboth, List.modifyHead_cons]
  · have hboth : separator ∉ items ++ start := by
      simp only [List.mem_append, hnone, hstart, or_self, not_false_eq_true]
    rw [hcons, ← List.append_assoc, pieces_append_cons hboth, List.modifyHead_cons]

theorem prefix_of_head?_pieces (hfirst : (pieces separator items).head? = some first) :
    first <+: items := by
  rcases pieces_cases separator items with ⟨_, hpieces⟩ | ⟨start, rest, rfl, _, hpieces⟩
  · rw [hpieces, List.head?_cons, Option.some.injEq] at hfirst
    exact hfirst ▸ List.prefix_rfl
  · rw [hpieces, List.head?_cons, Option.some.injEq] at hfirst
    exact hfirst ▸ List.prefix_append _ _

theorem not_mem_of_mem_pieces (hpiece : piece ∈ pieces separator items) : separator ∉ piece := by
  induction hlength : items.length using Nat.strongRecOn generalizing items with
  | ind length ih =>
      rcases pieces_cases separator items with ⟨hnone, hpieces⟩ | ⟨first, rest, rfl, hnone, hpieces⟩
      · rw [hpieces, List.mem_singleton] at hpiece
        exact hpiece ▸ hnone
      · rw [hpieces] at hpiece
        rcases List.mem_cons.mp hpiece with rfl | hrest
        · exact hnone
        · rw [List.length_append, List.length_cons] at hlength
          exact ih rest.length (by omega) hrest rfl

theorem mem_of_mem_pieces (hpiece : piece ∈ pieces separator items) {item : α}
    (hitem : item ∈ piece) : item ∈ items := by
  induction hlength : items.length using Nat.strongRecOn generalizing items with
  | ind length ih =>
      rcases pieces_cases separator items with ⟨_, hpieces⟩ | ⟨first, rest, rfl, _, hpieces⟩
      · rw [hpieces, List.mem_singleton] at hpiece
        exact hpiece ▸ hitem
      · rw [hpieces] at hpiece
        rcases List.mem_cons.mp hpiece with rfl | hrest
        · exact List.mem_append_left _ hitem
        · rw [List.length_append, List.length_cons] at hlength
          have hmem := ih rest.length (by omega) hrest rfl
          exact List.mem_append_right _ (List.mem_cons_of_mem _ hmem)

/-! ## Cutting what was joined -/

/-- Pieces that were written are cut again, whatever follows them. -/
theorem pieces_terminated (hparts : ∀ part ∈ parts, separator ∉ part) (rest : List α) :
    pieces separator (terminated separator parts ++ rest) = parts ++ pieces separator rest := by
  induction parts with
  | nil => rfl
  | cons first parts ih =>
      have hrest := ih fun part hpart => hparts part (List.mem_cons_of_mem _ hpart)
      rw [terminated_cons, List.append_assoc, List.cons_append,
        pieces_append_cons (hparts first List.mem_cons_self), hrest, List.cons_append]

/-- Adding to a list leaves its pieces but the last, which is continued. -/
theorem pieces_append (separator : α) (items more : List α) :
    ∃ parts last first others, items = terminated separator parts ++ last ∧
      pieces separator items = parts ++ [last] ∧ pieces separator more = first :: others ∧
      pieces separator (items ++ more) = parts ++ (last ++ first) :: others := by
  induction hlength : items.length using Nat.strongRecOn generalizing items with
  | ind length ih =>
      rcases pieces_cases separator items with ⟨hnone, hpieces⟩ | ⟨first, rest, rfl, hnone, hpieces⟩
      · -- without a separator the whole list is continued
        obtain ⟨start, others, hmore⟩ := List.exists_cons_of_ne_nil (pieces_ne_nil separator more)
        refine ⟨[], items, start, others, rfl, hpieces, hmore, ?_⟩
        rw [pieces_append_of_not_mem hnone, hmore, List.modifyHead_cons, List.nil_append]
      · have hshort : rest.length < length := by
          rw [← hlength, List.length_append, List.length_cons]
          omega
        obtain ⟨parts, last, start, others, hrest, hcut, hmore, hboth⟩ := ih _ hshort rest rfl
        refine ⟨first :: parts, last, start, others, ?_, ?_, hmore, ?_⟩
        · rw [terminated_cons, List.append_assoc, List.cons_append, ← hrest]
        · rw [hpieces, hcut, List.cons_append]
        · rw [List.append_assoc, List.cons_append, pieces_append_cons hnone, hboth, List.cons_append]

theorem pieces_append_separator (separator : α) (items more : List α) :
    pieces separator (items ++ separator :: more) =
      pieces separator items ++ pieces separator more := by
  obtain ⟨parts, last, first, others, -, hitems, hmore, hboth⟩ :=
    pieces_append separator items (separator :: more)
  have hempty := pieces_append_cons (List.not_mem_nil (a := separator)) more
  rw [List.nil_append, hmore, List.cons.injEq] at hempty
  rw [hboth, hitems, hempty.1, hempty.2, List.append_nil, List.append_assoc,
    List.singleton_append]

/-! ## Joining what was cut -/

/-- A list starts with its first pieces, if there are more, and the others are the pieces of
what follows. -/
theorem of_pieces_eq_append (hpieces : pieces separator items = parts ++ others)
    (hmore : others ≠ []) :
    ∃ rest, items = terminated separator parts ++ rest ∧ pieces separator rest = others := by
  induction parts generalizing items with
  | nil => exact ⟨items, rfl, hpieces⟩
  | cons first parts ih =>
      rcases pieces_cases separator items with ⟨_, hsingle⟩ | ⟨found, behind, rfl, _, hcons⟩
      · rw [hsingle, List.cons_append, List.cons.injEq] at hpieces
        exact absurd (List.append_eq_nil_iff.mp hpieces.2.symm).2 hmore
      · rw [hcons, List.cons_append, List.cons.injEq] at hpieces
        obtain ⟨rfl, hbehind⟩ := hpieces
        obtain ⟨rest, rfl, hrest⟩ := ih hbehind
        refine ⟨rest, ?_, hrest⟩
        rw [terminated_cons, List.append_assoc, List.cons_append]

end VoltageCapture.Text
