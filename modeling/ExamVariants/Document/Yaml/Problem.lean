namespace ExamVariants.Document.Yaml

inductive Problem where
  | controlCharacter
  | missingColon
  | entryContext
  | keyContext
  | valueContext
  | badStart
  | badDirective
  | badAnchor
  | badTag
  | badBlockHeader
  | tabIndentation
  | badEscape
  | documentMark
  | unclosedQuote
  | flowColon
  | missingDocumentStart
  | missingNode
  | missingEntry
  | missingKey
  | unclosedFlow
  | undefinedAlias
  | undefinedHandle
  | unsupportedTag
  | tagMismatch
  | numberRange
  | keyShape
  | tooDeep
  deriving DecidableEq, Repr

def Problem.message : Problem → String
  | controlCharacter => "control characters are not allowed"
  | missingColon => "a key without its colon"
  | entryContext => "a list entry is not allowed here"
  | keyContext => "a mapping key is not allowed here"
  | valueContext => "a mapping value is not allowed here"
  | badStart => "a character that starts nothing"
  | badDirective => "a malformed directive"
  | badAnchor => "a malformed anchor or alias"
  | badTag => "a malformed tag"
  | badBlockHeader => "a malformed header of a block"
  | tabIndentation => "a tab in the indentation"
  | badEscape => "a malformed escape"
  | documentMark => "a document mark within quotes"
  | unclosedQuote => "quotes that do not end"
  | flowColon => "a colon before a bracket or comma"
  | missingDocumentStart => "a document without its start"
  | missingNode => "a value is missing"
  | missingEntry => "a list entry is missing"
  | missingKey => "a mapping key is missing"
  | unclosedFlow => "a comma or a closing bracket is missing"
  | undefinedAlias => "an alias without its anchor"
  | undefinedHandle => "an undefined tag handle"
  | unsupportedTag => "an unsupported tag"
  | tagMismatch => "a value that does not fit its tag"
  | numberRange => "a number out of range"
  | keyShape => "a key that is no scalar"
  | tooDeep => "nesting too deep"

end ExamVariants.Document.Yaml
