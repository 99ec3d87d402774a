namespace ExamVariants.Document.Toml

inductive Problem where
  | controlCharacter
  | missingKey
  | missingEquals
  | missingValue
  | badScalar
  | badNumber
  | numberRange
  | badDate
  | badEscape
  | unclosedString
  | unclosedHeader
  | unclosedList
  | unclosedTable
  | trailingText
  | duplicateKey (key : String)
  | notExtendable (key : String)
  | tooDeep
  deriving DecidableEq, Repr

def Problem.message : Problem → String
  | controlCharacter => "control characters are not allowed"
  | missingKey => "a key is missing"
  | missingEquals => "a key without its equals sign"
  | missingValue => "a value is missing"
  | badScalar => "a value of no known kind"
  | badNumber => "a malformed number"
  | numberRange => "a number out of range"
  | badDate => "a malformed date or time"
  | badEscape => "a malformed escape"
  | unclosedString => "a string that does not end"
  | unclosedHeader => "a header without its closing brackets"
  | unclosedList => "a list without its comma or bracket"
  | unclosedTable => "an inline table without its comma or brace"
  | trailingText => "text behind the end of an entry"
  | duplicateKey key => "a second value for the key " ++ key
  | notExtendable key => "a closed table or a value under the key " ++ key
  | tooDeep => "nesting too deep"

end ExamVariants.Document.Toml
