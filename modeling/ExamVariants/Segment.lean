import ExamVariants.Style

namespace ExamVariants

inductive Segment where
  | simple (text : String) (styles : List Style)
  | compound (parts : List Segment)
  deriving Repr, Inhabited

structure Leaf where
  text : String
  styles : List Style
  deriving DecidableEq, Repr, Inhabited

namespace Segment

def plain (text : String) : Segment := simple text [.inherit]

def ofLeaf (l : Leaf) : Segment := simple l.text l.styles

/-- A single leaf stands alone; any other number of leaves forms a flat compound. -/
def ofLeaves : List Leaf → Segment
  | [l] => ofLeaf l
  | ls => compound (ls.map ofLeaf)

mutual

def leaves : Segment → List Leaf
  | simple text styles => [⟨text, styles⟩]
  | compound parts => leavesOf parts

def leavesOf : List Segment → List Leaf
  | [] => []
  | p :: ps => p.leaves ++ leavesOf ps

end

mutual

/-- The bare text. A compound joins the trimmed texts of its parts. -/
def text : Segment → String
  | simple text _ => text
  | compound parts => joinedText parts

def joinedText : List Segment → String
  | [] => ""
  | p :: ps => Text.strip p.text ++ joinedText ps

end

/-- A compound counts as a line of its own. -/
def styles : Segment → List Style
  | simple _ styles => styles
  | compound _ => [.newLine]

def parts : Segment → List Segment
  | simple _ _ => []
  | compound parts => parts

def hasStyle (s : Segment) (style : Style) : Bool :=
  s.leaves.any (·.styles.contains style)

mutual

/-- A readable form: a compound closes each part by a new line or a blank. -/
def display : Segment → String
  | simple text _ => text
  | compound parts => displayAll parts

def displayAll : List Segment → String
  | [] => ""
  | p :: ps =>
    p.display ++ (if p.styles.contains .newLine then "\n" else " ") ++ displayAll ps

end

theorem leavesOf_map_ofLeaf (ls : List Leaf) : leavesOf (ls.map ofLeaf) = ls := by
  induction ls with
  | nil => rfl
  | cons l ls ih => simp [leavesOf, leaves, ofLeaf, ih]

/-- No leaf is lost or regrouped when leaves become one segment. -/
@[simp] theorem leaves_ofLeaves (ls : List Leaf) : (ofLeaves ls).leaves = ls := by
  unfold ofLeaves
  split
  · rfl
  · exact leavesOf_map_ofLeaf _

end Segment

end ExamVariants
