import ExamVariants.Document.Value

namespace ExamVariants.Document.Json

def hexDigit (n : Nat) : Char :=
  if n < 10 then Char.ofNat ('0'.toNat + n) else Char.ofNat ('a'.toNat + (n - 10))

def quoteChar (c : Char) : List Char :=
  if c = '"' then ['\\', '"']
  else if c = '\\' then ['\\', '\\']
  else if c = '\n' then ['\\', 'n']
  else if c = '\r' then ['\\', 'r']
  else if c = '\t' then ['\\', 't']
  else if c.toNat < 0x20 then
    ['\\', 'u', '0', '0', hexDigit (c.toNat / 16), hexDigit (c.toNat % 16)]
  else [c]

def quote (s : String) : String :=
  String.ofList ('"' :: s.toList.flatMap quoteChar ++ ['"'])

mutual

/-- Appends the JSON text of a value to `out`. -/
def append (out : String) : Value → String
  | .null => out ++ "null"
  | .bool true => out ++ "true"
  | .bool false => out ++ "false"
  | .number n => out ++ n.text
  | .text s => out ++ quote s
  | .list items => appendItems (out ++ "[") items ++ "]"
  | .mapping entries => appendEntries (out ++ "\x7b") entries ++ "\x7d"

def appendItems (out : String) : List Value → String
  | [] => out
  | [v] => append out v
  | v :: w :: rest => appendItems (append out v ++ ",") (w :: rest)

def appendEntries (out : String) : List (String × Value) → String
  | [] => out
  | [(k, v)] => append (out ++ quote k ++ ":") v
  | (k, v) :: e :: rest => appendEntries (append (out ++ quote k ++ ":") v ++ ",") (e :: rest)

end

def write (v : Value) : String := append "" v

end ExamVariants.Document.Json
