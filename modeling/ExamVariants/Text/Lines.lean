namespace ExamVariants.Text

/-- The pieces between the separators; always at least one. -/
def splitChars (sep : Char) : List Char → List (List Char)
  | [] => [[]]
  | c :: cs =>
    if c = sep then [] :: splitChars sep cs
    else
      match splitChars sep cs with
      | [] => [[c]]
      | p :: ps => (c :: p) :: ps

def split (sep : Char) (s : String) : List String :=
  (splitChars sep s.toList).map String.ofList

theorem splitChars_ne_nil (sep : Char) (cs : List Char) : splitChars sep cs ≠ [] := by
  cases cs with
  | nil => simp [splitChars]
  | cons c cs =>
    simp only [splitChars]
    split
    · simp
    · split <;> simp

def dropReturn (cs : List Char) : List Char :=
  match cs.reverse with
  | '\r' :: rest => rest.reverse
  | _ => cs

/-- The lines of a text. A line ends with a new line, with or without a carriage return before it;
the last may end with the text, and then keeps what it holds. -/
def lineChars (cs : List Char) : List (List Char) :=
  match (splitChars '\n' cs).reverse with
  | [] => []
  | last :: closed =>
    let closed := closed.reverse.map dropReturn
    if last.isEmpty then closed else closed ++ [last]

def lines (s : String) : List String :=
  (lineChars s.toList).map String.ofList

end ExamVariants.Text
