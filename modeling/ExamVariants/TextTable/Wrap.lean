import ExamVariants.Text.Columns
import ExamVariants.Text.Lines

namespace ExamVariants.TextTable

open Text

/-- A line with at most so many columns to spare takes no further word. -/
def spare : Nat := 2

/-- The longest front of a word that takes at most so many columns, with the rest. -/
def cutWord (room : Nat) : List Char → List Char × List Char
  | [] => ([], [])
  | c :: cs =>
    if charColumns c ≤ room then
      let (front, rest) := cutWord (room - charColumns c) cs
      (c :: front, rest)
    else ([], c :: cs)

/-- A front of a word for an empty line holds a character in any case. -/
def cutFresh (room : Nat) (w : List Char) : List Char × List Char :=
  match cutWord room w with
  | ([], c :: cs) => ([c], cs)
  | cut => cut

def joinWord (line w : List Char) : List Char := if line.isEmpty then w else line ++ ' ' :: w

/-- The lines of words from the next on, after those that stand on the line `line` already. A word
is cut only if it is longer than a line. -/
def wrapWords (width : Nat) : Nat → List Char → List (List Char) → List (List Char)
  | 0, line, _ => [line]
  | _, line, [] => if line.isEmpty then [] else [line]
  | fuel + 1, line, w :: ws =>
    let settle (line : List Char) (ws : List (List Char)) :=
      if width - spare < columns line then line :: wrapWords width fuel [] ws
      else wrapWords width fuel line ws
    if columns (joinWord line w) ≤ width then settle (joinWord line w) ws
    else
      let room := if line.isEmpty then width else width - columns line - 1
      if !line.isEmpty && room ≤ spare then line :: wrapWords width fuel [] (w :: ws)
      else if width < columns w then
        let (front, rest) := if line.isEmpty then cutFresh room w else cutWord room w
        settle (joinWord line front) (rest :: ws)
      else line :: settle w ws

def wrapLine (width : Nat) (line : List Char) : List (List Char) :=
  if columns line ≤ width then [line]
  else wrapWords width (3 * line.length + 3) [] (splitChars ' ' line)

def wrap (width : Nat) (s : String) : List (List Char) :=
  (splitChars '\n' s.toList).flatMap (wrapLine width)

end ExamVariants.TextTable
