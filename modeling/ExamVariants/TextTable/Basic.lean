import ExamVariants.TextTable.Wrap

namespace ExamVariants

open Text

inductive Alignment where
  | left
  | right
  | center
  deriving DecidableEq, Repr

structure TextTable where
  /-- The line between two columns. -/
  divider : Char
  /-- Whether a rule stands between two rows. -/
  ruled : Bool
  header : List (String × Alignment)
  rows : List (List String)

namespace TextTable

/-- The greatest number of columns of the terminal that a table takes. -/
def maxWidth : Nat := 120

def cellColumns (t : TextTable) : List (List String) :=
  t.header.mapIdx fun i h => h.1 :: t.rows.filterMap (·[i]?)

def longest (lines : List (List Char)) : Nat := lines.foldl (fun n l => max n (columns l)) 0

/-- The columns that cells take without being wrapped. -/
def naturalWidth (cells : List String) : Nat :=
  longest (cells.flatMap fun c => splitChars '\n' c.toList)

/-- The columns that cells take once they are wrapped. -/
def wrappedWidth (width : Nat) (cells : List String) : Nat :=
  longest (cells.flatMap (wrap width))

/-- A share that is used up to fewer columns than this stays as it is. -/
def slack : Nat := 3

/-- The widths found so far, with the room that is left and for how many columns. -/
structure Sharing where
  widths : List (Option Nat)
  room : Nat
  unsettled : Nat

namespace Sharing

/-- Gives widths to columns, one after another, where `choose` finds one for the present share. -/
def settle (choose : Nat → List String → Option Nat) :
    List (List String × Option Nat) → Nat → Nat → Sharing
  | [], room, n => ⟨[], room, n⟩
  | (cells, width) :: cs, room, n =>
    match width with
    | some w =>
      let s := settle choose cs room n
      { s with widths := some w :: s.widths }
    | none =>
      match choose (room / n) cells with
      | some w =>
        let s := settle choose cs (room - w) (n - 1)
        { s with widths := some w :: s.widths }
      | none =>
        let s := settle choose cs room n
        { s with widths := none :: s.widths }

def settleAll (choose : Nat → List String → Option Nat) (cells : List (List String)) :
    Nat → Sharing → Sharing
  | 0, s => s
  | fuel + 1, s =>
    let next := settle choose (cells.zip s.widths) s.room s.unsettled
    if next.unsettled = s.unsettled then s else settleAll choose cells fuel next

/-- A column that fits into its share takes what it needs. -/
def fitting (share : Nat) (cells : List String) : Option Nat :=
  if naturalWidth cells ≤ share then some (naturalWidth cells) else none

/-- A wrapped column that leaves much of its share takes what it needs. -/
def saving (share : Nat) (cells : List String) : Option Nat :=
  let w := wrappedWidth share cells
  if slack ≤ share - w then some w else none

/-- Shares the room equally; what remains goes to the columns in front, one to each. -/
def divide (share : Nat) : Nat → List (Option Nat) → List Nat
  | _, [] => []
  | extra, some w :: ws => w :: divide share extra ws
  | 0, none :: ws => share :: divide share 0 ws
  | extra + 1, none :: ws => (share + 1) :: divide share extra ws

end Sharing

/-- The widths of the columns without the blanks beside them. -/
def widths (t : TextTable) : List Nat :=
  let cells := t.cellColumns
  let n := cells.length
  let start : Sharing := ⟨List.replicate n none, maxWidth - (n + 1) - 2 * n, n⟩
  let s := Sharing.settleAll Sharing.fitting cells n start
  let s := Sharing.settleAll Sharing.saving cells n s
  let room := max s.room s.unsettled
  Sharing.divide (room / s.unsettled) (room % s.unsettled) s.widths

def spaces (n : Nat) : List Char := List.replicate n ' '

def align (a : Alignment) (width : Nat) (line : List Char) : List Char :=
  let free := width - columns line
  match a with
  | .left => line ++ spaces free
  | .right => spaces free ++ line
  | .center => spaces ((free + 1) / 2) ++ line ++ spaces (free / 2)

def rowLines (t : TextTable) (ws : List Nat) (cells : List String) : List (List Char) :=
  let wrapped := (cells.zip ws).map fun (c, w) => wrap w c
  let height := wrapped.foldl (fun n ls => max n ls.length) 0
  let aligned := (wrapped.zip (ws.zip (t.header.map Prod.snd))).map fun (ls, w, a) =>
    (List.range height).map fun i => ' ' :: align a w ((ls[i]?).getD []) ++ [' ']
  (List.range height).map fun i =>
    '│' :: [t.divider].intercalate (aligned.map fun ls => (ls[i]?).getD []) ++ ['│']

def rule (ws : List Nat) (left line cross right : Char) : List Char :=
  left :: [cross].intercalate (ws.map fun w => List.replicate (w + 2) line) ++ [right]

def renderLines (t : TextTable) : List (List Char) :=
  let ws := t.widths
  let rows := t.rows.map (t.rowLines ws)
  let between := if t.ruled then [rule ws '├' '─' '┼' '┤'] else []
  rule ws '╭' '─' '┬' '╮' :: t.rowLines ws (t.header.map Prod.fst) ++
    rule ws '╞' '═' '╪' '╡' :: between.intercalate rows ++ [rule ws '╰' '─' '┴' '╯']

def render (t : TextTable) : String :=
  "\n".intercalate (t.renderLines.map String.ofList)

end TextTable

end ExamVariants
