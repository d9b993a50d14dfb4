import VoltageCapture.Capture.Open
import VoltageCapture.Proofs.Error

/-!
# Files that were put into a tree

A file is put where the path that creates it leads, and the path still leads there
afterwards: on its way it passes through folders only, and the place of the file was none
(`walk_put`).  So opening the path gives the file (`openCapture_put`).
-/

namespace VoltageCapture

namespace FileTree

variable {tree : FileTree} {location other start target : Location} {entry : Entry}
  {path : String} {content : Bytes}

/-! ## What stands where -/

theorem folder_of_isPrefixOf (hhome : location.isPrefixOf tree.home = true) :
    tree.entry? location = some .folder :=
  if_pos hhome

theorem entry?_put_self (hlocation : tree.entry? location ≠ some .folder) :
    FileTree.entry? (tree.put location entry) location = some entry := by
  have haway : ¬location.isPrefixOf (tree.put location entry).home = true :=
    fun hhome => hlocation (folder_of_isPrefixOf hhome)
  unfold entry?
  rw [if_neg haway, put, List.find?_cons_of_pos (by simp), Option.map_some]

theorem entry?_put_of_ne (hne : other ≠ location) :
    FileTree.entry? (tree.put location entry) other = tree.entry? other := by
  have hothers : (tree.entries.filter (·.1 != location)).find? (·.1 == other) =
      tree.entries.find? (·.1 == other) := by
    rw [List.find?_filter]
    congr 1
    funext found
    by_cases hfound : found.1 = other
    · simp [hfound, hne]
    · simp [hfound]
  have hfind : (tree.put location entry).entries.find? (·.1 == other) =
      tree.entries.find? (·.1 == other) := by
    rw [put, List.find?_cons_of_neg (by simpa using Ne.symm hne), hothers]
  unfold entry?
  rw [hfind]
  rfl

/-! ## Paths -/

/-- A path leads where it led, if an entry was put where there was no folder. -/
theorem walk_put (hlocation : tree.entry? location ≠ some .folder) {names : List String}
    (hwalk : tree.walk start names = .ok target) :
    (tree.put location entry).walk start names = .ok target := by
  induction names generalizing start with
  | nil => exact hwalk
  | cons name names ih =>
      rw [walk] at hwalk ⊢
      split at hwalk
      · simp at hwalk
      · simp at hwalk
      · next hfolder =>
        -- the walk goes through folders only, and where the file is put there is none
        have hne : start ≠ location := by
          rintro rfl
          exact hlocation hfolder
        rw [entry?_put_of_ne hne, hfolder]
        rw [bind_eq_ok] at hwalk
        obtain ⟨next, hstep, hrest⟩ := hwalk
        exact bind_eq_ok.mpr ⟨next, hstep, ih hrest⟩

/-- Where a file is created there is no folder, and the path leads there. -/
theorem of_locateNew (hlocate : tree.locateNew path = .ok location) :
    tree.locate path.toList = .ok location ∧ tree.entry? location ≠ some .folder := by
  simp only [locateNew, bind_eq_ok] at hlocate
  obtain ⟨found, hnames, hlocate⟩ := hlocate
  split at hlocate
  · simp [bind_eq_ok] at hlocate
  · rw [bind_eq_ok] at hlocate
    obtain ⟨place, hwalk, hfree⟩ := hlocate
    split at hfree
    · simp at hfree
    · next hfolder =>
      obtain rfl := Except.ok.inj hfree
      refine ⟨?_, hfolder⟩
      simp only [locate, bind_eq_ok]
      exact ⟨found, hnames, hwalk⟩

theorem locate_put (hlocation : tree.entry? location ≠ some .folder) {text : List Char}
    (hlocate : tree.locate text = .ok target) :
    (tree.put location entry).locate text = .ok target := by
  simp only [locate, bind_eq_ok] at hlocate ⊢
  obtain ⟨found, hnames, hwalk⟩ := hlocate
  exact ⟨found, hnames, walk_put hlocation hwalk⟩

theorem ne_empty_of_locate (hlocate : tree.locate path.toList = .ok location) : path ≠ "" := by
  rintro rfl
  simp only [locate, bind_eq_ok] at hlocate
  obtain ⟨found, hnames, _⟩ := hlocate
  have hrefused : names "".toList = .error (.system .notFound) := rfl
  rw [hrefused] at hnames
  simp at hnames

/-- Opening a path gives the file that was put where the path leads. -/
theorem openCapture_put (hlocation : tree.entry? location ≠ some .folder)
    (hlocate : tree.locate path.toList = .ok location) (hcontent : content ≠ []) :
    (tree.put location (.file content)).openCapture path = .ok (.file content) := by
  have hentry : (tree.put location (.file content)).openEntry path = .ok (.file content) := by
    simp only [openEntry, bind_eq_ok]
    refine ⟨location, locate_put hlocation hlocate, ?_⟩
    rw [entry?_put_self hlocation]
  unfold openCapture
  rw [hentry]
  split
  · next herror => simp at herror
  · next hempty =>
    rw [Except.ok.injEq, Entry.file.injEq] at hempty
    exact absurd hempty hcontent
  · next hfound => rw [Except.ok.inj hfound]

end FileTree

end VoltageCapture
