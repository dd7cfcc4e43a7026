import BusMaster.Bytes

/-!
# Lines of a text

What the client prints is a list of texts. The program writes them one after the other, in several
goes and each with a line feed behind it (`printout`), and who reads its output reads lines. A text
may hold line breaks of its own, since what a user wrote is printed as it is. A line feed ends a line,
and a carriage return in front of it goes with it; a carriage return alone is a character as any
other.

The lines of the output can be told from the texts alone (`printedLines`): each text ends a line, so
they can be cut into lines one by one, and it does not matter in how many goes they were written
(`lines_printout`).
-/

namespace BusMaster

/-- the lines, with a character put in front of the first one -/
def continueLine (c : Char) : List (List Char) → List (List Char)
  | [] => [[c]]
  | line :: rest => (c :: line) :: rest

/-- the lines of a text; nothing behind the last break is no line -/
def lines : List Char → List (List Char)
  | [] => []
  | c :: rest =>
    if c = '\n' then [] :: lines rest
    else if c = '\r' ∧ rest.head? = some '\n' then lines rest
    else continueLine c (lines rest)

/-- what the program writes: texts one after the other, each with a line feed behind it -/
def printout (texts : List String) : String := String.join (texts.map fun text => text ++ "\n")

/-- the lines that a reader of the output finds, text by text -/
def printedLines (texts : List String) : List String :=
  texts.flatMap fun text => (lines (text.toList ++ ['\n'])).map String.ofList

theorem continueLine_ne_nil (c : Char) (ls : List (List Char)) : continueLine c ls ≠ [] := by
  cases ls <;> simp [continueLine]

theorem continueLine_append (c : Char) {ls : List (List Char)} (h : ls ≠ [])
    (rest : List (List Char)) : continueLine c (ls ++ rest) = continueLine c ls ++ rest := by
  cases ls with
  | nil => exact absurd rfl h
  | cons line ls => rfl

theorem lines_ne_nil {s : List Char} (h : s ≠ []) : lines s ≠ [] := by
  induction s with
  | nil => exact absurd rfl h
  | cons c rest ih =>
    simp only [lines]
    split
    · simp
    · split
      · rename_i hc
        exact ih fun hr => by simp [hr] at hc
      · exact continueLine_ne_nil c (lines rest)

/-- what ends with a line feed is a whole number of lines, so it is cut apart from what follows -/
theorem lines_append (s t : List Char) :
    lines (s ++ '\n' :: t) = lines (s ++ ['\n']) ++ lines t := by
  induction s with
  | nil => simp [lines]
  | cons c rest ih =>
    simp only [List.cons_append, lines, List.head?_append, List.head?_cons, ih]
    split
    · rfl
    · split
      · rfl
      · exact continueLine_append c (lines_ne_nil (by simp)) (lines t)

theorem toList_printout (texts : List String) :
    (printout texts).toList = texts.flatMap fun text => text.toList ++ ['\n'] := by
  simp [printout, String.toList_join, List.flatMap_map]

/-- **The lines of the output are those of its texts.** -/
theorem lines_printout (texts : List String) :
    (lines (printout texts).toList).map String.ofList = printedLines texts := by
  rw [toList_printout, printedLines]
  induction texts with
  | nil => rfl
  | cons text texts ih =>
    rw [List.flatMap_cons, List.flatMap_cons, List.append_assoc, List.singleton_append,
      lines_append, List.map_append, ih]

end BusMaster
