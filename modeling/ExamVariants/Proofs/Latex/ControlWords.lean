import ExamVariants.Latex.Document
import ExamVariants.Proofs.Decimal.Numerals
import ExamVariants.Proofs.Latex.ChoiceMark
import ExamVariants.Proofs.Latex.Reading

/-!
The control words of a LaTeX text. A control word is a backslash with the letters behind it, and
comments are skipped. Of the control words, those are reported that divide a document, give points,
or define and use its macros. The texts of an examination hold none of them.
-/

namespace ExamVariants.Latex

/-- A control word, with the argument directly behind it if it takes one. -/
structure ControlWord where
  name : String
  argument : Option String
  deriving DecidableEq, Repr

def pointWords : List String := ["question", "part", "subpart", "subsubpart"]

def macroWords : List String :=
  ["course", "coursenumber", "crn", "term", "instructors", "timelimit", "examtitle", "examdate",
    "examsection", "sectionta"]

/-- How a control word that is reported takes its argument. -/
inductive Shape where
  | bare
  | bracketed (opening closing : Char)

def shape? (name : String) : Option Shape :=
  if name ∈ ["begin", "end", "newcommand"] then some (.bracketed '\x7b' '\x7d')
  else if name ∈ pointWords then some (.bracketed '[' ']')
  else if name ∈ ["noaddpoints", "addpoints"] ∨ name ∈ macroWords then some .bare
  else none

/-- What the character to come belongs to; letters are kept from the latest. -/
inductive Scan where
  | text
  | backslash
  | word (letters : List Char)
  | comment
  | argument (name : String) (closing : Char) (body : List Char)
  deriving DecidableEq, Repr

namespace Scan

/-- Behind a character that belongs to no control word. -/
def behind (c : Char) : Scan :=
  if c = '\\' then .backslash else if c = '%' then .comment else .text

def endWord (name : String) (c : Char) : Scan × List ControlWord :=
  match shape? name with
  | none => (behind c, [])
  | some .bare => (behind c, [⟨name, none⟩])
  | some (.bracketed opening closing) =>
    if c = opening then (.argument name closing [], []) else (behind c, [⟨name, none⟩])

def step (s : Scan) (c : Char) : Option (Scan × List ControlWord) :=
  match s with
  | .text => some (behind c, [])
  | .backslash => some (if c.isAlpha then .word [c] else .text, [])
  | .word letters =>
    if c.isAlpha then some (.word (c :: letters), [])
    else some (endWord (String.ofList letters.reverse) c)
  | .comment => some (if c = '\n' then .text else .comment, [])
  | .argument name closing body =>
    if c = closing then some (.text, [⟨name, some (String.ofList body.reverse)⟩])
    else some (.argument name closing (c :: body), [])

end Scan

/-- The control words of a text that ends behind the last of them. -/
def controlWords? (s : String) : Option (List ControlWord) :=
  match readFrom Scan.step .text s.toList with
  | some (.text, ws) => some ws
  | _ => none

/-- The text holds these control words, whatever stands before and behind it. -/
def Gives (s : String) (ws : List ControlWord) : Prop := Reads Scan.step .text s ws

instance (s : String) (ws : List ControlWord) : Decidable (Gives s ws) :=
  inferInstanceAs (Decidable (readFrom Scan.step .text s.toList = some (.text, ws)))

theorem controlWords?_eq_some_iff {s : String} {ws : List ControlWord} :
    controlWords? s = some ws ↔ Gives s ws := by
  rw [controlWords?, Gives, Reads]
  split
  case h_1 h => simp [h]
  case h_2 hne => exact iff_of_false (by simp) fun h => hne ws h

theorem gives_nil : Gives "" [] := rfl

theorem newLine_gives : Gives "\n" [] := rfl

theorem Gives.append {s t : String} {ws vs : List ControlWord} (h : Gives s ws)
    (h' : Gives t vs) : Gives (s ++ t) (ws ++ vs) := Reads.append h h'

theorem readFrom_argument {closing : Char} {cs : List Char} (h : closing ∉ cs) (name : String)
    (body : List Char) :
    readFrom Scan.step (.argument name closing body) (cs ++ [closing]) =
      some (.text, [⟨name, some (String.ofList (body.reverse ++ cs))⟩]) := by
  induction cs generalizing body with
  | nil => simp [readFrom, Scan.step]
  | cons c cs ih =>
    obtain ⟨hc, hcs⟩ := List.ne_and_not_mem_of_not_mem_cons h
    simp [readFrom, Scan.step, hc.symm, ih hcs]

theorem gives_argument {opening name : String} {closing : Char}
    (hopening : readFrom Scan.step .text opening.toList = some (.argument name closing [], []))
    {argument : String} (h : closing ∉ argument.toList) :
    Gives (opening ++ argument ++ String.singleton closing) [⟨name, some argument⟩] := by
  have hargument := readFrom_append hopening (readFrom_argument h name [])
  rw [Gives, Reads, String.toList_append, String.toList_append, List.append_assoc,
    String.toList_singleton, hargument]
  simp

theorem beginEnvironment_gives {name : String} (h : '\x7d' ∉ name.toList) :
    Gives (beginEnvironment name) [⟨"begin", some name⟩] := by
  have hline : beginEnvironment name =
      "\\begin\x7b" ++ name ++ String.singleton '\x7d' ++ "\n" := by
    simp only [beginEnvironment, braced, ← String.append_assoc]
    rfl
  rw [hline]
  exact (gives_argument rfl h).append newLine_gives

theorem endEnvironment_gives {name : String} (h : '\x7d' ∉ name.toList) :
    Gives (endEnvironment name) [⟨"end", some name⟩] := by
  have hline : endEnvironment name = "\\end\x7b" ++ name ++ String.singleton '\x7d' ++ "\n" := by
    simp only [endEnvironment, braced, ← String.append_assoc]
    rfl
  rw [hline]
  exact (gives_argument rfl h).append newLine_gives

def pointsWord (command : String) (points : Nat) : ControlWord := ⟨command, some (toString points)⟩

theorem pointsLine_gives {command : String} (h : command ∈ pointWords) (points : Nat) :
    Gives (pointsLine command points) [pointsWord command points] := by
  have hdigits : ']' ∉ (toString points).toList := Decimal.notMem_toString (by decide) points
  have hopening : readFrom Scan.step .text ("\\" ++ command ++ "[").toList =
      some (.argument command ']' [], []) := by
    revert command
    decide
  have hline : pointsLine command points =
      "\\" ++ command ++ "[" ++ toString points ++ (String.singleton ']' ++ "\n") := rfl
  rw [hline, ← String.append_assoc]
  exact (gives_argument hopening hdigits).append newLine_gives

theorem braced_gives {command inner : String} {ws : List ControlWord}
    (hcommand : Gives (command ++ "\x7b") []) (h : Gives inner ws) :
    Gives (command ++ braced inner) ws := by
  have hgroup := (hcommand.append h).append (by decide : Gives "\x7d" [])
  rw [List.append_nil, List.nil_append] at hgroup
  simpa only [braced, String.append_assoc] using hgroup

theorem readFrom_scan_escapeChar (c : Char) :
    readFrom Scan.step .text (escapeChar c) = some (.text, []) := by
  by_cases hc : c ∈ specials
  · have hspecials : ∀ c ∈ specials,
        readFrom Scan.step .text (escapeChar c) = some (.text, []) := forall_specials (by decide)
    exact hspecials c hc
  · have hbackslash : c ≠ '\\' := (ne_of_notMem_specials hc).1
    have hpercent : c ≠ '%' := fun h => hc (h ▸ by decide)
    rw [escapeChar_of_notMem hc]
    simp [readFrom, Scan.step, Scan.behind, hbackslash, hpercent]

theorem escapeText_gives (s : String) : Gives (escapeText s) [] := by
  rw [Gives, Reads, escapeText, String.toList_ofList, readFrom_flatMap readFrom_scan_escapeChar,
    List.flatMap_eq_nil_iff.mpr fun _ _ => rfl]

/-- The styles of texts that are escaped as running text. -/
def proseStyles : List Style := [.bold, .italic, .inherit, .newLine]

/-- No leaf holds code or text of the notation. -/
def IsProse (s : Segment) : Prop :=
  ∀ style ∈ [Style.code, .inlineCode, .custom], s.hasStyle style = false

theorem isProse_plain (t : String) : IsProse (.plain t) := by
  intro style hstyle
  simp only [List.mem_cons, List.not_mem_nil, or_false] at hstyle
  rcases hstyle with rfl | rfl | rfl <;> rfl

theorem styles_subset_of_isProse {s : Segment} (hs : IsProse s) {l : Leaf} (hl : l ∈ s.leaves) :
    l.styles ⊆ proseStyles := by
  intro style hstyle
  have hhas : s.hasStyle style = true :=
    List.any_eq_true.mpr ⟨l, hl, List.contains_iff_mem.mpr hstyle⟩
  have hprose : style ∈ [Style.code, .inlineCode, .custom] ∨ style ∈ proseStyles := by
    cases style <;> decide
  refine hprose.resolve_left fun hmem => ?_
  rw [hs style hmem] at hhas
  cases hhas

theorem escape_of_mem_proseStyles {style : Style} (h : style ∈ proseStyles) (s : String) :
    escape style s = escapeText s := by
  simp only [proseStyles, List.mem_cons, List.not_mem_nil, or_false] at h
  rcases h with rfl | rfl | rfl | rfl <;> rfl

theorem wrap_gives {target : Notation} {style : Style} (hstyle : style ∈ proseStyles)
    {inner outer : String} (h : Gives inner []) (hwrap : wrap target style inner = .ok outer) :
    Gives outer [] := by
  simp only [proseStyles, List.mem_cons, List.not_mem_nil, or_false] at hstyle
  rcases hstyle with rfl | rfl | rfl | rfl
  · obtain rfl := Except.ok.inj hwrap
    exact braced_gives (by decide : Gives ("\\textbf" ++ "\x7b") []) h
  · obtain rfl := Except.ok.inj hwrap
    exact braced_gives (by decide : Gives ("\\textit" ++ "\x7b") []) h
  · obtain rfl := Except.ok.inj hwrap
    exact h
  · obtain rfl := Except.ok.inj hwrap
    exact h

theorem foldlM_wrap_gives {target : Notation} {ss : List Style} (hss : ss ⊆ proseStyles)
    {inner outer : String} (h : Gives inner [])
    (hwrap : ss.foldlM (fun inner style => wrap target style inner) inner = .ok outer) :
    Gives outer [] := by
  induction ss generalizing inner with
  | nil =>
    obtain rfl := Except.ok.inj hwrap
    exact h
  | cons style ss ih =>
    obtain ⟨hstyle, hss⟩ := List.cons_subset.mp hss
    rw [List.foldlM_cons] at hwrap
    obtain ⟨mid, hmid, hwrap⟩ := bind_eq_ok_iff.mp hwrap
    exact ih hss (wrap_gives hstyle h hmid) hwrap

theorem renderLeaf_gives {target : Notation} {l : Leaf} (hl : l.styles ⊆ proseStyles)
    {out : String} (h : (styles target).renderLeaf l = .ok out) : Gives out [] := by
  have hleading : StyleTable.leading l.styles ∈ proseStyles :=
    StyleTable.leading_of_forall (by decide) hl
  obtain ⟨wrapped, hwrapped, rfl⟩ := renderLeaf_eq_ok h
  rw [escape_of_mem_proseStyles hleading] at hwrapped
  have hgives := foldlM_wrap_gives hl (escapeText_gives l.text) hwrapped
  split
  · exact (by decide : Gives "\n\n" []).append hgives
  · exact hgives

theorem renderLeaves_gives {target : Notation} {ls : List Leaf}
    (hls : ∀ l ∈ ls, l.styles ⊆ proseStyles) {out : String}
    (h : (styles target).renderLeaves ls = .ok out) : Gives out [] := by
  induction ls generalizing out with
  | nil =>
    obtain rfl := Except.ok.inj h
    exact gives_nil
  | cons l ls ih =>
    obtain ⟨hl, hls⟩ := List.forall_mem_cons.mp hls
    rw [StyleTable.renderLeaves] at h
    obtain ⟨first, hfirst, h⟩ := bind_eq_ok_iff.mp h
    obtain ⟨rest, hrest, h⟩ := bind_eq_ok_iff.mp h
    obtain rfl := pure_eq_ok_iff.mp h
    exact (renderLeaf_gives hl hfirst).append (ih hls hrest)

/-- The text of a segment gives no control word, whatever its leaves say. -/
theorem text_gives {m : Mode} {s : Segment} (hs : IsProse s) {out : String}
    (h : m.text s = .ok out) : Gives out [] := by
  rw [Mode.text, StyleTable.render_eq_renderLeaves] at h
  exact renderLeaves_gives (fun _ hl => styles_subset_of_isProse hs hl) h

end ExamVariants.Latex
