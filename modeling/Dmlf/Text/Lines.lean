import Mathlib.Data.List.Basic

/-!
# The lines of a text file

A file that is read as a text has all kinds of line ends translated to `\n`, and is read line by
line, each line with its end.

* `readLines_writeLines` : lines without an end inside are read as they were written.
-/

namespace Dmlf

/-- `\r\n` and `\r` become `\n`. -/
def universalNewlines : List Char → List Char
  | [] => []
  | c :: s =>
    if c = '\r' then
      -- the end of the line is the next character
      if s.head? = some '\n' then universalNewlines s else '\n' :: universalNewlines s
    else c :: universalNewlines s

/-- The lines, each with its end; the last one may have none. -/
def splitLines : List Char → List (List Char)
  | [] => []
  | c :: s =>
    if c = '\n' then ['\n'] :: splitLines s
    else
      match splitLines s with
      | [] => [[c]]
      | line :: lines => (c :: line) :: lines

/-- `f.readlines()`. -/
def readLines (file : List Char) : List (List Char) := splitLines (universalNewlines file)

/-- The file after each line has been written with an end. -/
def writeLines (lines : List (List Char)) : List Char := lines.flatMap (· ++ ['\n'])

theorem writeLines_append (lines lines' : List (List Char)) :
    writeLines (lines ++ lines') = writeLines lines ++ writeLines lines' :=
  List.flatMap_append

variable {s line : List Char}

theorem universalNewlines_of_notMem (h : '\r' ∉ s) : universalNewlines s = s := by
  induction s with
  | nil => rfl
  | cons c s ih =>
    obtain ⟨hc, hs⟩ := not_or.1 (mt List.mem_cons.2 h)
    rw [universalNewlines, if_neg (Ne.symm hc), ih hs]

theorem splitLines_append (h : '\n' ∉ line) (s : List Char) :
    splitLines (line ++ '\n' :: s) = (line ++ ['\n']) :: splitLines s := by
  induction line with
  | nil => rfl
  | cons c line ih =>
    obtain ⟨hc, hline⟩ := not_or.1 (mt List.mem_cons.2 h)
    rw [List.cons_append, splitLines, if_neg (Ne.symm hc), ih hline]
    rfl

theorem notMem_writeLines {lines : List (List Char)} (h : ∀ line ∈ lines, '\r' ∉ line) :
    '\r' ∉ writeLines lines := by
  intro hmem
  obtain ⟨line, hline, hmem⟩ := List.mem_flatMap.1 hmem
  rcases List.mem_append.1 hmem with hmem | hmem
  · exact h line hline hmem
  · exact absurd (List.mem_singleton.1 hmem) (by decide)

/-- **Lines are read as they were written**, if none has an end inside. -/
theorem readLines_writeLines {lines : List (List Char)}
    (h : ∀ line ∈ lines, '\n' ∉ line ∧ '\r' ∉ line) :
    readLines (writeLines lines) = lines.map (· ++ ['\n']) := by
  rw [readLines, universalNewlines_of_notMem (notMem_writeLines fun line hline => (h line hline).2)]
  induction lines with
  | nil => rfl
  | cons line lines ih =>
    have hrest := ih fun line hline => h line (List.mem_cons_of_mem _ hline)
    calc splitLines (writeLines (line :: lines))
        = splitLines (line ++ '\n' :: writeLines lines) := by simp [writeLines]
      _ = (line ++ ['\n']) :: splitLines (writeLines lines) :=
          splitLines_append (h line List.mem_cons_self).1 _
      _ = (line :: lines).map (· ++ ['\n']) := by rw [hrest, List.map_cons]

end Dmlf
