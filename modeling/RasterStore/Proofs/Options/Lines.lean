import RasterStore.Proofs.Options.History

/-!
# Options as lines of text

The text of an option list has one line for each option: its name, an equals sign and its value. No
name that is accepted holds an equals sign, and no name or value a line feed. So lines end where the
text has a line feed, and names end at the first equals sign of their line; what stands behind it,
further equals signs too, is the value.

* `toList_text`              the text is the options' lines, each ended by a line feed
* `linesOf_text`             the text splits into these lines
* `readLine_line`            a line splits into its name and its value
* `text_determines_options`  the options are read back from the text
-/

namespace RasterStore.OptionList

variable {options other : OptionList} {entry : String × String}

/-! ## Writing -/

/-- The line of an option, without the line feed that ends it. -/
def line (entry : String × String) : List Char :=
  entry.1.toList ++ '=' :: entry.2.toList

theorem toList_text : options.text.toList = (options.entries.map line).flatMap (· ++ ['\n']) := by
  simp [text, String.toList_join, List.flatMap_map, line, toString]

/-- Accepted names have no character that ends a name or a line. -/
theorem Acceptable.notMem_name (h : Acceptable entry) :
    '=' ∉ entry.1.toList ∧ '\n' ∉ entry.1.toList := by
  -- neither is a letter, a digit or the underscore
  constructor
  · intro hmem
    exact absurd (isNameChar_iff.mpr (h.name _ hmem)) (by decide)
  · intro hmem
    exact absurd (isNameChar_iff.mpr (h.name _ hmem)) (by decide)

/-- The line of an accepted option is one line. -/
theorem Acceptable.notMem_line (h : Acceptable entry) : '\n' ∉ line entry := by
  simp [line, h.notMem_name.2, h.value.1]

/-! ## Reading -/

/-- The lines of a text, each of them ended by a line feed. -/
def linesOf (text : String) : List (List Char) :=
  -- behind the last line feed there is no line
  (text.toList.splitOn '\n').dropLast

/-- The option of a line. Its name ends at the first equals sign. -/
def readLine (line : List Char) : String × String :=
  (.ofList (line.takeWhile (· != '=')), .ofList (line.dropWhile (· != '=')).tail)

/-- The options whose lines are the lines of a text. -/
def readEntries (text : String) : List (String × String) :=
  (linesOf text).map readLine

/-- Lines that are ended by line feeds, and have none inside, are found again. -/
theorem splitOn_lines {lines : List (List Char)} (hlines : ∀ line ∈ lines, '\n' ∉ line) :
    (lines.flatMap (· ++ ['\n'])).splitOn '\n' = lines ++ [[]] := by
  -- the first line feed of the text is the one behind the first line
  induction lines with
  | nil => rfl
  | cons line rest ih =>
    rw [List.forall_mem_cons] at hlines
    rw [List.flatMap_cons, List.append_assoc, List.singleton_append,
      List.splitOn_append_cons_self_of_not_mem hlines.1, ih hlines.2, List.cons_append]

theorem linesOf_text (h : ∀ entry ∈ options.entries, Acceptable entry) :
    linesOf options.text = options.entries.map line := by
  rw [linesOf, toList_text, splitOn_lines, List.dropLast_concat]
  simp only [List.forall_mem_map]
  intro entry hentry
  exact (h entry hentry).notMem_line

/-- A name without an equals sign ends where the value starts, whatever the value is. -/
theorem readLine_line (hname : '=' ∉ entry.1.toList) : readLine (line entry) = entry := by
  -- the scan for the first equals sign passes the whole name
  have hinside : ∀ c ∈ entry.1.toList, (c != '=') = true := by
    intro c hc
    rw [bne_iff_ne]
    rintro rfl
    exact hname hc
  rw [readLine, line, List.takeWhile_append_of_pos hinside, List.dropWhile_append_of_pos hinside]
  simp

theorem readEntries_text (h : ∀ entry ∈ options.entries, Acceptable entry) :
    readEntries options.text = options.entries := by
  rw [readEntries, linesOf_text h, List.map_map]
  -- entry by entry, each from its own line
  have hmap : options.entries.map (readLine ∘ line) = options.entries.map id :=
    List.map_congr_left fun entry hentry => readLine_line (h entry hentry).notMem_name.1
  rw [hmap, List.map_id]

/-! ## Lists that were set option by option -/

/-- Whatever calls made the list, its options are acceptable. -/
theorem acceptable_attemptAll (calls : List (String × String)) :
    ∀ entry ∈ (attemptAll {} calls).entries, Acceptable entry := by
  rw [attemptAll_eq]
  exact acceptable_putAll (by simp [accepted]) (by simp)

/-- The text of an option list determines the list. It has one line for each option, in order, and
    from these the names, in their spelling, and the values are read back. So two lists that any
    calls made of empty ones have the same text exactly if they have the same options in the same
    order. -/
theorem text_determines_options (calls others : List (String × String)) :
    linesOf (attemptAll {} calls).text = (attemptAll {} calls).entries.map line ∧
    readEntries (attemptAll {} calls).text = (attemptAll {} calls).entries ∧
    ((attemptAll {} calls).text = (attemptAll {} others).text ↔
      (attemptAll {} calls).entries = (attemptAll {} others).entries) := by
  have hcalls := acceptable_attemptAll calls
  have hothers := acceptable_attemptAll others
  refine ⟨linesOf_text hcalls, readEntries_text hcalls, ?_⟩
  constructor
  · intro htext
    rw [← readEntries_text hcalls, htext, readEntries_text hothers]
  · intro hentries
    rw [text, text, hentries]

example : readEntries "A==\nb_2=x=y\n" = [("A", "="), ("b_2", "x=y")] := by decide

end RasterStore.OptionList
