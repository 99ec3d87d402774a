namespace ExamVariants.Markup

structure Tag where
  closing : Bool
  name : String
  start : Nat
  stop : Nat
  deriving DecidableEq, Repr, Inhabited

namespace Tag

/-- Names are compared without regard to ASCII case. -/
def key (t : Tag) : String := t.name.toLower

end Tag

def isNameChar (c : Char) : Bool := c.isAlpha || c == '_'

/-- A name closed by `>` at the front of a text. -/
def nameBefore? (cs : List Char) : Option (List Char) :=
  match cs.takeWhile isNameChar, cs.dropWhile isNameChar with
  | c :: name, '>' :: _ => some (c :: name)
  | _, _ => none

def tagAt? (offset : Nat) : List Char → Option Tag
  | '<' :: '/' :: cs =>
    (nameBefore? cs).map fun name => ⟨true, String.ofList name, offset, offset + name.length + 3⟩
  | '<' :: cs =>
    (nameBefore? cs).map fun name => ⟨false, String.ofList name, offset, offset + name.length + 2⟩
  | _ => none

/-- The tags of a text that stands at byte `offset`, in order. -/
def tagsFrom (offset : Nat) : List Char → List Tag
  | [] => []
  | c :: cs => (tagAt? offset (c :: cs)).toList ++ tagsFrom (offset + c.utf8Size) cs

def tags (raw : List Char) : List Tag := tagsFrom 0 raw

end ExamVariants.Markup
