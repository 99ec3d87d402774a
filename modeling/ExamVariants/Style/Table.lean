import ExamVariants.RenderError
import ExamVariants.Segment

namespace ExamVariants

structure StyleTable where
  /-- What stands before a text with a line break. -/
  lineBreak : String
  /-- Escapes a bare text by its leading style. -/
  escape : Style → String → Except RenderError String
  /-- Wraps a text that is already escaped. -/
  wrap : Style → String → Except RenderError String
  /-- Refuses styles that do not nest. -/
  check : List Style → Except RenderError Unit

namespace StyleTable

/-- The first style that is no line break. -/
def leading (styles : List Style) : Style :=
  (styles.find? (· ≠ .newLine)).getD .inherit

/-- Escapes once by the leading style, then wraps by every style in order; a line break comes
first. -/
def renderLeaf (t : StyleTable) (l : Leaf) : Except RenderError String := do
  t.check l.styles
  let escaped ← t.escape (leading l.styles) l.text
  let wrapped ← l.styles.foldlM (fun inner style => t.wrap style inner) escaped
  return if l.styles.contains .newLine then t.lineBreak ++ wrapped else wrapped

mutual

def render (t : StyleTable) : Segment → Except RenderError String
  | .simple text styles => t.renderLeaf ⟨text, styles⟩
  | .compound parts => t.renderAll parts

def renderAll (t : StyleTable) : List Segment → Except RenderError String
  | [] => .ok ""
  | p :: ps => do
    let first ← t.render p
    let rest ← t.renderAll ps
    return first ++ rest

end

end StyleTable

end ExamVariants
