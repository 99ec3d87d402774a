import ExamVariants.Markup.Pairing
import ExamVariants.Segment

/-!
Marked-up text as a styled segment. The first opening tag of a span whose partner lies in the span
splits it into the text before, the inner span and the span after; unpaired tags are plain text.
-/

namespace ExamVariants.Markup

/-- A pair of tags whose name is no style; `position` is the byte at which the pair opens. -/
structure UnknownStyle where
  name : String
  position : Nat
  deriving DecidableEq, Repr

def UnknownStyle.message (e : UnknownStyle) : String :=
  s!"unknown style tag <{e.name}> at byte {e.position}"

def byteSize : List Char → Nat
  | [] => 0
  | c :: cs => c.utf8Size + byteSize cs

/-- Drops characters from the front until `n` bytes are gone. -/
def dropBytes : Nat → List Char → List Char
  | 0, cs => cs
  | _ + 1, [] => []
  | n + 1, c :: cs => dropBytes (n + 1 - c.utf8Size) cs

/-- Keeps the characters at the front that begin within the first `n` bytes. -/
def takeBytes : Nat → List Char → List Char
  | 0, _ => []
  | _ + 1, [] => []
  | n + 1, c :: cs => c :: takeBytes (n + 1 - c.utf8Size) cs

/-- The characters from byte `start` up to byte `stop`. -/
def slice (start stop : Nat) (cs : List Char) : List Char :=
  takeBytes (stop - start) (dropBytes start cs)

structure Source where
  chars : List Char
  tags : Array Tag
  partners : Array (Option Nat)

def Source.ofChars (cs : List Char) : Source :=
  let ts := Markup.tags cs
  ⟨cs, ts.toArray, Markup.partners ts⟩

/-- The tags with index from `firstTag` up to `endTag`, and the bytes that they lie in. -/
structure Span where
  firstTag : Nat
  endTag : Nat
  start : Nat
  stop : Nat
  deriving DecidableEq, Repr

/-- What is still to be done: split a span, or leave the innermost enclosing tag. -/
inductive Work where
  | split (span : Span)
  | leave
  deriving DecidableEq, Repr

/-- The work ahead, the styles of the enclosing tags from the innermost, and the leaves so far from
the latest. -/
structure State where
  work : List Work
  enclosing : List Style
  leaves : List Leaf
  deriving DecidableEq, Repr

namespace Source

/-- The first opening tag of the span whose partner lies in the span. -/
def firstPair? (src : Source) (s : Span) : Option (Nat × Nat) :=
  (List.range' s.firstTag (s.endTag - s.firstTag)).findSome? fun o =>
    match src.partners.getD o none with
    | some c => if c < s.endTag then some (o, c) else none
    | none => none

/-- Text outside every tag inherits. -/
def leaf (src : Source) (start stop : Nat) (enclosing : List Style) : Leaf where
  text := String.ofList (slice start stop src.chars)
  styles := if enclosing.isEmpty then [.inherit] else enclosing

def step (src : Source) (st : State) : Except UnknownStyle State :=
  match st.work with
  | [] => .ok st
  | .leave :: work => .ok { st with work, enclosing := st.enclosing.tail }
  | .split span :: work =>
    match src.firstPair? span with
    | none =>
      .ok { st with work, leaves := src.leaf span.start span.stop st.enclosing :: st.leaves }
    | some (o, c) =>
      let opening := src.tags.getD o default
      let closing := src.tags.getD c default
      match Style.ofName? opening.name with
      | none => .error ⟨opening.name, opening.start⟩
      | some style => .ok
        { work := .split ⟨o + 1, c, opening.stop, closing.start⟩ :: .leave ::
            .split ⟨c + 1, span.endTag, closing.stop, span.stop⟩ :: work
          enclosing := style :: st.enclosing
          leaves := src.leaf span.start opening.start st.enclosing :: st.leaves }

/-- Steps until no work is left, `fuel` times at most. -/
def run (src : Source) : Nat → State → Except UnknownStyle State
  | 0, st => .ok st
  | fuel + 1, st => if st.work.isEmpty then .ok st else src.step st >>= src.run fuel

def start (src : Source) : State where
  work := [.split ⟨0, src.tags.size, 0, byteSize src.chars⟩]
  enclosing := []
  leaves := []

/-- A pair of tags takes three steps, and the whole text one more. -/
def maxSteps (src : Source) : Nat := 1 + 3 * src.tags.size

end Source

def leaves (raw : String) : Except UnknownStyle (List Leaf) :=
  let src := Source.ofChars raw.toList
  (fun st => st.leaves.reverse) <$> src.run src.maxSteps src.start

/-- One leaf makes a simple segment, several make a flat compound. -/
def parse (raw : String) : Except UnknownStyle Segment :=
  Segment.ofLeaves <$> leaves raw

end ExamVariants.Markup
