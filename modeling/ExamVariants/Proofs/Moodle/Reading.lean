import ExamVariants.Proofs.Moodle.Html
import ExamVariants.Proofs.Style.Marks

namespace ExamVariants.Moodle

inductive Tag where
  | strong
  | em
  | pre
  | code
  | br
  deriving DecidableEq, Repr

def tagItem? : String → Option (Item Tag)
  | "strong" => some (.opened .strong)
  | "/strong" => some (.closed .strong)
  | "em" => some (.opened .em)
  | "/em" => some (.closed .em)
  | "pre" => some (.opened .pre)
  | "/pre" => some (.closed .pre)
  | "code" => some (.opened .code)
  | "/code" => some (.closed .code)
  | "br/" => some (.alone .br)
  | _ => none

def entity? : String → Option Char
  | "amp" => some '&'
  | "lt" => some '<'
  | "gt" => some '>'
  | "quot" => some '"'
  | _ => none

/-- What the character to come belongs to; tags and entities are kept from their latest character. -/
inductive HtmlPlace where
  | text
  | tag (name : List Char)
  | entity (name : List Char)
  deriving DecidableEq, Repr

def htmlStep (p : HtmlPlace) (c : Char) : Option (HtmlPlace × List (Item Tag)) :=
  match p with
  | .text =>
    if c = '<' then some (.tag [], [])
    else if c = '&' then some (.entity [], [])
    else some (.text, [.char c])
  | .tag name =>
    if c = '>' then (tagItem? (String.ofList name.reverse)).map fun i => (.text, [i])
    else some (.tag (c :: name), [])
  | .entity name =>
    if c = ';' then (entity? (String.ofList name.reverse)).map fun d => (.text, [.char d])
    else some (.entity (c :: name), [])

/-- Reads a text that does not end within a tag or an entity. -/
def readHtml (s : String) : Option (List (Item Tag)) :=
  match readFrom htmlStep .text s.toList with
  | some (.text, is) => some is
  | _ => none

theorem readFrom_escapeChar (c : Char) :
    readFrom htmlStep .text (escapeChar c) = some (.text, [.char c]) := by
  fun_cases escapeChar c
  case case5 hamp hlt hgt hquot =>
    rw [readFrom, htmlStep, if_neg hlt, if_neg hamp]
    rfl
  all_goals rfl

theorem escapeHtml_reads (s : String) :
    Reads htmlStep .text (escapeHtml s) (s.toList.map .char) :=
  reads_escaped readFrom_escapeChar s

/-- The tags that a style puts around its text, the first outermost. -/
def tags : Style → List Tag
  | .bold => [.strong]
  | .italic => [.em]
  | .code => [.pre, .code]
  | .inlineCode => [.code]
  | .custom | .inherit | .newLine => []

/-- What a leaf reads as: its characters within the tags of its styles, behind a line break if it
has one. -/
def leafItems (l : Leaf) : List (Item Tag) :=
  (if l.styles.contains .newLine then [.alone .br] else []) ++
    Item.styled tags l.styles (l.text.toList.map .char)

theorem within_reads {ms : List Tag} {start stop inner : String} {is : List (Item Tag)}
    (hstart : Reads htmlStep .text start (ms.map .opened))
    (hstop : Reads htmlStep .text stop (ms.reverse.map .closed))
    (h : Reads htmlStep .text inner is) :
    Reads htmlStep .text (start ++ inner ++ stop) (Item.around ms is) := by
  rw [Item.around_eq_append]
  exact (hstart.append h).append hstop

theorem wrap_reads (style : Style) {inner : String} {is : List (Item Tag)}
    (h : Reads htmlStep .text inner is) :
    Reads htmlStep .text (wrap style inner) (Item.around (tags style) is) := by
  cases style with
  | bold => exact within_reads rfl rfl h
  | italic => exact within_reads rfl rfl h
  | code => exact within_reads rfl rfl h
  | inlineCode => exact within_reads rfl rfl h
  | custom => exact h
  | inherit => exact h
  | newLine => exact h

theorem foldl_wrap_reads (ss : List Style) {inner : String} {is : List (Item Tag)}
    (h : Reads htmlStep .text inner is) :
    Reads htmlStep .text (ss.foldl (fun inner style => wrap style inner) inner)
      (Item.styled tags ss is) := by
  induction ss generalizing inner is with
  | nil => exact h
  | cons style ss ih => exact ih (wrap_reads style h)

theorem leafHtml_reads {l : Leaf} (h : .custom ∉ l.styles) :
    Reads htmlStep .text (leafHtml l) (leafItems l) := by
  have hstyles : ∀ style ∈ l.styles, style ≠ .custom := fun style hstyle heq => h (heq ▸ hstyle)
  have hleading : StyleTable.leading l.styles ≠ .custom :=
    StyleTable.leading_of_forall (motive := (· ≠ .custom)) (by decide) hstyles
  have hwrapped := foldl_wrap_reads l.styles (escapeHtml_reads l.text)
  rw [leafHtml, leafItems, if_neg hleading]
  split
  · have hbreak : Reads htmlStep .text "<br/>" [.alone .br] := rfl
    exact hbreak.append hwrapped
  · exact hwrapped

theorem htmlText_reads {s : Segment} (h : ∀ l ∈ s.leaves, .custom ∉ l.styles) :
    Reads htmlStep .text (htmlText s) (s.leaves.flatMap leafItems) := by
  rw [htmlText]
  generalize s.leaves = ls at h
  induction ls with
  | nil => rfl
  | cons l ls ih =>
    rw [List.map_cons, String.join_cons, List.flatMap_cons]
    exact (leafHtml_reads (h l List.mem_cons_self)).append
      (ih fun l' hl' => h l' (List.mem_cons_of_mem l hl'))

theorem nested_leafItems (l : Leaf) : Item.Nested (leafItems l) := by
  have hstyled := Item.nested_styled tags l.styles (Item.nested_chars l.text.toList)
  rw [leafItems]
  split
  · exact hstyled.alone .br
  · exact hstyled

theorem text_leafItems (l : Leaf) : Item.text (leafItems l) = l.text := by
  have hstyled : Item.text (Item.styled tags l.styles (l.text.toList.map .char)) = l.text :=
    (Item.text_styled tags l.styles _).trans (Item.text_chars l.text)
  rw [leafItems]
  split
  · exact hstyled
  · exact hstyled

/-- A text without passages in HTML of its own, and without forbidden characters, is rendered and
reads back: as its leaves, each within the tags of its styles, which nest. Without the tags the
texts of the leaves are left. -/
theorem html_text_reads_back {s : Segment} (hcustom : ∀ l ∈ s.leaves, .custom ∉ l.styles)
    (hchars : AllChars (fun c => isForbidden c = false) (leafTexts s)) :
    ∃ out is, styles.render s = .ok out ∧ readHtml out = some is ∧
      is = s.leaves.flatMap leafItems ∧ Item.Nested is ∧
      Item.text is = String.join (leafTexts s) := by
  have hread : readFrom htmlStep .text (htmlText s).toList =
      some (.text, s.leaves.flatMap leafItems) := htmlText_reads hcustom
  refine ⟨htmlText s, _, ?_, ?_, rfl, ?_, ?_⟩
  · exact (render_writes s).eq_ok_iff.mpr ⟨hchars, rfl⟩
  · rw [readHtml, hread]
  · exact Item.nested_flatMap fun l _ => nested_leafItems l
  · exact Item.text_flatMap fun l _ => text_leafItems l

/-- Texts that look like tags and entities. -/
theorem html_text_reads_back_tags :
    ∃ out is, styles.render (.compound [.simple "</strong>&lt;" [.bold, .newLine, .italic],
        .compound [.simple "\"<br/>\"" [.code, .code], .plain "&"]]) = .ok out ∧
      readHtml out = some is ∧ Item.Nested is ∧ Item.text is = "</strong>&lt;\"<br/>\"&" := by
  obtain ⟨out, is, hout, hread, -, hnested, htext⟩ :=
    html_text_reads_back (s := .compound [.simple "</strong>&lt;" [.bold, .newLine, .italic],
      .compound [.simple "\"<br/>\"" [.code, .code], .plain "&"]]) (by decide) (by decide)
  exact ⟨out, is, hout, hread, hnested, htext⟩

end ExamVariants.Moodle
