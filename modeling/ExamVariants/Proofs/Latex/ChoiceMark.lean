import ExamVariants.Latex.Document
import ExamVariants.Proofs.Latex.Nodes
import ExamVariants.Proofs.Style.Leaves
import Mathlib.Data.List.Forall2

namespace ExamVariants.Latex

/-- Blanks are skipped and a star is looked for. -/
def starred (cs : List Char) : Bool := (cs.dropWhile (· == ' ')).head? == some '*'

/-- No style of the leaf puts anything around its text. -/
def isBare (l : Leaf) : Bool := l.styles.all fun s => s == .inherit || s == .custom

/-- The leaves come out with a star in front: a bare leaf begins with one, and only blank bare leaves
stand before it. -/
def opensWithStar : List Leaf → Bool
  | [] => false
  | l :: ls =>
    isBare l &&
      if l.text.toList.all (· == ' ') then opensWithStar ls else starred l.text.toList

theorem starred_cons {c : Char} (hc : c ≠ ' ') (cs : List Char) :
    starred (c :: cs) = (c == '*') := by
  simp [starred, hc]

theorem starred_append (cs cs' : List Char) :
    starred (cs ++ cs') = if cs.all (· == ' ') then starred cs' else starred cs := by
  induction cs with
  | nil => simp
  | cons c cs ih =>
    by_cases hc : c = ' '
    · simpa [starred, hc] using ih
    · rw [List.cons_append, starred_cons hc, starred_cons hc]
      simp [hc]

theorem escapeChar_eq_or (c : Char) :
    escapeChar c = [c] ∨ c ≠ ' ' ∧ c ≠ '*' ∧ ∃ rest, escapeChar c = '\\' :: rest := by
  unfold escapeChar
  split <;> simp

theorem starred_escapeText (s : String) :
    (escapeText s).toList.all (· == ' ') = s.toList.all (· == ' ') ∧
      starred (escapeText s).toList = starred s.toList := by
  rw [escapeText, String.toList_ofList]
  induction s.toList with
  | nil => exact ⟨rfl, rfl⟩
  | cons c cs ih =>
    rw [List.flatMap_cons]
    rcases escapeChar_eq_or c with hc | ⟨hblank, hstar, rest, hc⟩
    · rw [hc, List.singleton_append, List.all_cons, List.all_cons, ih.1]
      refine ⟨rfl, ?_⟩
      by_cases hblank : c = ' '
      · simpa [starred, hblank] using ih.2
      · rw [starred_cons hblank, starred_cons hblank]
    · rw [hc, List.cons_append, starred_cons (by decide), starred_cons hblank]
      simp [hblank, hstar]

def isCommand (s : Style) : Bool := s == .bold || s == .italic || s == .inlineCode

theorem wrap_of_isCommand {target : Notation} {s : Style} (hs : isCommand s = true)
    {inner outer : String} (h : wrap target s inner = .ok outer) :
    ∃ rest, outer.toList = '\\' :: rest := by
  cases s with
  | bold =>
    obtain rfl := Except.ok.inj h
    exact ⟨_, by rw [String.toList_append]; rfl⟩
  | italic =>
    obtain rfl := Except.ok.inj h
    exact ⟨_, by rw [String.toList_append]; rfl⟩
  | inlineCode =>
    rw [wrap] at h
    split at h
    · obtain rfl := Except.ok.inj h
      exact ⟨_, by rw [String.append_assoc, String.append_assoc, String.toList_append]; rfl⟩
    · cases h
  | _ => cases hs

theorem wrap_of_not_isCommand {s : Style} (hs : isCommand s = false) (hcode : s ≠ .code)
    (target : Notation) (inner : String) : wrap target s inner = .ok inner := by
  cases s with
  | code => exact absurd rfl hcode
  | custom => rfl
  | inherit => rfl
  | newLine => rfl
  | _ => cases hs

theorem foldlM_wrap_of_bare {target : Notation} {ss : List Style}
    (h : ∀ s ∈ ss, isCommand s = false ∧ s ≠ .code) (inner : String) :
    ss.foldlM (fun inner style => wrap target style inner) inner = .ok inner := by
  induction ss with
  | nil => rfl
  | cons s ss ih =>
    obtain ⟨hs, hcode⟩ := h s List.mem_cons_self
    rw [List.foldlM_cons, wrap_of_not_isCommand hs hcode]
    exact ih fun s' hs' => h s' (List.mem_cons_of_mem s hs')

/-- Once a command stands around the text, every further style leaves a command in front. -/
theorem foldlM_wrap_of_isCommand {target : Notation} {ss : List Style} (hcode : .code ∉ ss)
    {inner outer : String} (h : (∃ rest, inner.toList = '\\' :: rest) ∨ ∃ s ∈ ss, isCommand s = true)
    (hwrap : ss.foldlM (fun inner style => wrap target style inner) inner = .ok outer) :
    ∃ rest, outer.toList = '\\' :: rest := by
  induction ss generalizing inner with
  | nil =>
    obtain rfl := Except.ok.inj hwrap
    exact h.resolve_right (by simp)
  | cons s ss ih =>
    rw [List.foldlM_cons] at hwrap
    obtain ⟨mid, hmid, hwrap⟩ := bind_eq_ok_iff.mp hwrap
    have hrest : .code ∉ ss := fun hs => hcode (List.mem_cons_of_mem s hs)
    -- Either this style puts a command in front, or it changes nothing and a later one does.
    refine ih hrest ?_ hwrap
    by_cases hs : isCommand s = true
    · exact Or.inl (wrap_of_isCommand hs hmid)
    · have hne : s ≠ .code := fun hs => hcode (hs ▸ List.mem_cons_self)
      rw [wrap_of_not_isCommand (by simpa using hs) hne] at hmid
      obtain rfl := Except.ok.inj hmid
      apply h.imp_right
      rintro ⟨s', hs', hcommand⟩
      rcases List.mem_cons.mp hs' with rfl | hs'
      · exact absurd hcommand hs
      · exact ⟨s', hs', hcommand⟩

theorem renderLeaf_eq_ok {target : Notation} {l : Leaf} {text : String}
    (h : (styles target).renderLeaf l = .ok text) :
    ∃ wrapped, l.styles.foldlM (fun inner style => wrap target style inner)
        (escape (StyleTable.leading l.styles) l.text) = .ok wrapped ∧
      text = if l.styles.contains .newLine then "\n\n" ++ wrapped else wrapped := by
  obtain ⟨-, -, hrest⟩ := bind_eq_ok_iff.mp h
  obtain ⟨escaped, hescaped, hrest⟩ := bind_eq_ok_iff.mp hrest
  obtain ⟨wrapped, hwrapped, hrest⟩ := bind_eq_ok_iff.mp hrest
  refine ⟨wrapped, ?_, (pure_eq_ok_iff.mp hrest).symm⟩
  rw [Except.ok.inj hescaped]
  exact hwrapped

theorem renderLeaf_of_check {target : Notation} {l : Leaf} (h : check target l.styles = .ok ()) :
    (styles target).renderLeaf l =
      (l.styles.foldlM (fun inner style => wrap target style inner)
        (escape (StyleTable.leading l.styles) l.text)).map
          fun wrapped => if l.styles.contains .newLine then "\n\n" ++ wrapped else wrapped := by
  have hcheck : (styles target).check l.styles = .ok () := h
  rw [StyleTable.renderLeaf, hcheck]
  change (List.foldlM (fun inner style => wrap target style inner) _ l.styles >>= _) = _
  cases l.styles.foldlM (fun inner style => wrap target style inner)
    (escape (StyleTable.leading l.styles) l.text) <;> rfl

theorem leading_of_isBare {l : Leaf} (hl : isBare l = true) :
    StyleTable.leading l.styles = .inherit ∨ StyleTable.leading l.styles = .custom := by
  rw [StyleTable.leading]
  cases hfind : l.styles.find? (· ≠ .newLine) with
  | none => exact Or.inl rfl
  | some s =>
    have hs := List.all_eq_true.mp hl s (List.mem_of_find?_eq_some hfind)
    simpa using hs

theorem starred_of_isBare {target : Notation} {l : Leaf} (hl : isBare l = true) {text : String}
    (h : (styles target).renderLeaf l = .ok text) :
    text.toList.all (· == ' ') = l.text.toList.all (· == ' ') ∧
      starred text.toList = starred l.text.toList := by
  have hstyles : ∀ s ∈ l.styles, s = .inherit ∨ s = .custom := by
    intro s hs
    simpa using List.all_eq_true.mp hl s hs
  have hbare : ∀ s ∈ l.styles, isCommand s = false ∧ s ≠ .code := by
    intro s hs
    rcases hstyles s hs with rfl | rfl <;> decide
  have hnewLine : l.styles.contains .newLine = false := by
    have hmem : .newLine ∉ l.styles := fun hs => by simpa using hstyles _ hs
    simpa using hmem
  obtain ⟨wrapped, hwrapped, rfl⟩ := renderLeaf_eq_ok h
  rw [foldlM_wrap_of_bare hbare] at hwrapped
  obtain rfl := Except.ok.inj hwrapped
  rw [hnewLine, if_neg Bool.false_ne_true]
  rcases leading_of_isBare hl with hleading | hleading
  · rw [hleading]
    exact starred_escapeText l.text
  · rw [hleading]
    exact ⟨rfl, rfl⟩

theorem starred_of_not_isBare {target : Notation} {l : Leaf} (hl : isBare l = false)
    (hcode : .code ∉ l.styles) {text : String} (h : (styles target).renderLeaf l = .ok text) :
    text.toList.all (· == ' ') = false ∧ starred text.toList = false := by
  obtain ⟨wrapped, hwrapped, rfl⟩ := renderLeaf_eq_ok h
  by_cases hnewLine : l.styles.contains .newLine = true
  · rw [if_pos hnewLine, String.toList_append]
    exact ⟨rfl, rfl⟩
  · rw [if_neg hnewLine]
    -- Without code and line breaks, a style that is not bare must put a command around the text.
    have hcommand : ∃ s ∈ l.styles, isCommand s = true := by
      obtain ⟨s, hs, hne⟩ := List.all_eq_false.mp hl
      refine ⟨s, hs, ?_⟩
      cases s with
      | code => exact absurd hs hcode
      | newLine => exact absurd (List.contains_iff_mem.mpr hs) hnewLine
      | inherit => exact absurd rfl hne
      | custom => exact absurd rfl hne
      | _ => rfl
    obtain ⟨rest, hrest⟩ := foldlM_wrap_of_isCommand hcode (Or.inr hcommand) hwrapped
    rw [hrest]
    exact ⟨rfl, starred_cons (by decide) rest⟩

theorem starred_renderLeaves {target : Notation} {ls : List Leaf} (hcode : ∀ l ∈ ls, .code ∉ l.styles)
    {text : String} (h : (styles target).renderLeaves ls = .ok text) :
    starred text.toList = opensWithStar ls := by
  induction ls generalizing text with
  | nil =>
    obtain rfl := Except.ok.inj h
    rfl
  | cons l ls ih =>
    rw [StyleTable.renderLeaves] at h
    obtain ⟨first, hfirst, h⟩ := bind_eq_ok_iff.mp h
    obtain ⟨rest, hrest, h⟩ := bind_eq_ok_iff.mp h
    obtain rfl := pure_eq_ok_iff.mp h
    rw [String.toList_append, starred_append, opensWithStar]
    -- Past a blank bare leaf the next leaf decides; any other leaf decides for itself.
    cases hl : isBare l with
    | true =>
      obtain ⟨hblank, hstar⟩ := starred_of_isBare hl hfirst
      rw [hblank, hstar, ih (fun l' hl' => hcode l' (List.mem_cons_of_mem l hl')) hrest,
        Bool.true_and]
    | false =>
      obtain ⟨hblank, hstar⟩ := starred_of_not_isBare hl (hcode l List.mem_cons_self) hfirst
      rw [hblank, hstar, Bool.false_and, if_neg Bool.false_ne_true]

def afterItem (m : Mode) (c : Choice) (text : String) : String :=
  (if m.solutions && c.isCorrect then "*" else "") ++ " " ++ text

def itemLine (s : String) : String := "    " ++ "\\item" ++ s ++ "\n"

theorem choiceCommand_eq (m : Mode) (c : Choice) :
    m.choiceCommand c = "\\item" ++ if m.solutions && c.isCorrect then "*" else "" := by
  rw [Mode.choiceCommand]
  cases m.solutions && c.isCorrect <;> rfl

theorem choice_eq_ok {m : Mode} {path : QuestionPath} {c : Choice} {line : String}
    (h : m.choice path c = .ok line) :
    ∃ text, m.text c.statement = .ok text ∧ c.statement.hasStyle .code = false ∧
      line = itemLine (afterItem m c text) := by
  rw [Mode.choice] at h
  obtain ⟨u, hcode, h⟩ := bind_eq_ok_iff.mp h
  obtain ⟨text, htext, h⟩ := bind_eq_ok_iff.mp h
  refine ⟨text, htext, ?_, ?_⟩
  · rw [Mode.rejectCode] at hcode
    by_contra hhas
    rw [if_pos (by simpa using hhas)] at hcode
    cases hcode
  · rw [← pure_eq_ok_iff.mp h, choiceCommand_eq, itemLine, afterItem]
    simp only [String.append_assoc]

theorem choices_eq_ok {m : Mode} {path : QuestionPath} {cs : List Choice} {output : String}
    (h : m.choices path cs = .ok output) :
    ∃ items, output = String.join (items.map itemLine) ∧
      List.Forall₂ (fun c s => ∃ text, m.text c.statement = .ok text ∧
        c.statement.hasStyle .code = false ∧ s = afterItem m c text) cs items := by
  induction cs generalizing output with
  | nil =>
    obtain rfl := Except.ok.inj h
    exact ⟨[], rfl, List.Forall₂.nil⟩
  | cons c cs ih =>
    rw [Mode.choices] at h
    obtain ⟨first, hfirst, h⟩ := bind_eq_ok_iff.mp h
    obtain ⟨rest, hrest, h⟩ := bind_eq_ok_iff.mp h
    obtain ⟨text, htext, hcode, rfl⟩ := choice_eq_ok hfirst
    obtain ⟨items, rfl, hitems⟩ := ih hrest
    refine ⟨afterItem m c text :: items, ?_, List.Forall₂.cons ⟨text, htext, hcode, rfl⟩ hitems⟩
    rw [← pure_eq_ok_iff.mp h, List.map_cons, String.join_cons]

theorem starred_afterItem {m : Mode} {c : Choice} {text : String}
    (htext : m.text c.statement = .ok text) (hcode : c.statement.hasStyle .code = false) :
    starred (afterItem m c text).toList =
      (m.solutions && c.isCorrect || opensWithStar c.statement.leaves) := by
  have hleaves : ∀ l ∈ c.statement.leaves, .code ∉ l.styles := by
    intro l hl hmem
    have hnone := List.any_eq_false.mp hcode l hl
    exact hnone (List.contains_iff_mem.mpr hmem)
  rw [Mode.text, StyleTable.render_eq_renderLeaves] at htext
  have hstar := starred_renderLeaves hleaves htext
  rw [afterItem, String.toList_append, String.toList_append]
  cases m.solutions && c.isCorrect with
  | true => rfl
  | false => simpa [starred] using hstar

/-- How a choice stands in its item. The item reads as it should unless the text of a choice without
a printed mark opens with a star. -/
structure ItemReads (layout : Layout) (solutions : Bool) (c : Choice) (s : String) : Prop where
  written : ∃ text, (styles layout.target).render c.statement = .ok text ∧
    s = (if solutions && c.isCorrect then "*" else "") ++ " " ++ text
  starred_eq : starred s.toList = (solutions && c.isCorrect || opensWithStar c.statement.leaves)
  right_iff : (starred s.toList = true ↔ solutions = true ∧ c.isCorrect = true) ↔
    (opensWithStar c.statement.leaves = true → solutions = true ∧ c.isCorrect = true)

/-- In the text of a question, the choices of every closed-ended question within it stand as items,
and an item reads as marked when its mark is printed or its text opens with a star. -/
theorem choices_read_starred {layout : Layout} {solutions : Bool} {number : Nat} {q : Question}
    {output : String} (hrender : renderQuestion layout solutions number q = .ok output)
    {statement : Segment} {points : Nat} {choices : List Choice}
    (hnode : .closedEnded statement points choices ∈ q.nodes) :
    ∃ items, IsPiece (beginEnvironment "items" ++ String.join (items.map itemLine) ++
        endEnvironment "items") output ∧
      List.Forall₂ (ItemReads layout solutions) choices items := by
  obtain ⟨body, hbody, hrender⟩ := bind_eq_ok_iff.mp hrender
  obtain rfl := pure_eq_ok_iff.mp hrender
  -- The question stands somewhere in the text of the outermost one, as a piece of it.
  obtain ⟨path', depth', inner, hinner, hpiece⟩ := Mode.exists_body_of_mem_nodes hnode hbody
  rw [Mode.body] at hinner
  obtain ⟨header, -, hinner⟩ := bind_eq_ok_iff.mp hinner
  obtain ⟨lines, hlines, hinner⟩ := bind_eq_ok_iff.mp hinner
  obtain rfl := pure_eq_ok_iff.mp hinner
  obtain ⟨items, rfl, hitems⟩ := choices_eq_ok hlines
  refine ⟨items, ?_, hitems.imp ?_⟩
  · have hblock : IsPiece (beginEnvironment "items" ++ String.join (items.map itemLine) ++
        endEnvironment "items") (header ++ "\n" ++ beginEnvironment "items" ++
          String.join (items.map itemLine) ++ endEnvironment "items") :=
      ⟨header ++ "\n", "", by simp [String.append_assoc]⟩
    exact (hblock.trans hpiece).append_left _
  · rintro c s ⟨text, htext, hcode, rfl⟩
    have hstar := starred_afterItem htext hcode
    refine ⟨⟨text, htext, rfl⟩, hstar, ?_⟩
    rw [hstar]
    cases solutions <;> cases c.isCorrect <;> simp

/-- A marked choice whose own text opens with a star, and a wrong one of plain text. -/
theorem choices_read_starred_pick :
    ∃ items, IsPiece (beginEnvironment "items" ++ String.join (items.map itemLine) ++
        endEnvironment "items") ("\\question[1]\nPick\n" ++ beginEnvironment "items" ++
          itemLine "* *x" ++ itemLine " y" ++ endEnvironment "items") ∧
      List.Forall₂ (ItemReads .midterm true) [⟨true, .plain "*x"⟩, ⟨false, .plain "y"⟩] items :=
  have hrender : renderQuestion .midterm true 1
      (.closedEnded (.plain "Pick") 1 [⟨true, .plain "*x"⟩, ⟨false, .plain "y"⟩]) =
        .ok ("\\question[1]\nPick\n" ++ beginEnvironment "items" ++ itemLine "* *x" ++
          itemLine " y" ++ endEnvironment "items") := rfl
  choices_read_starred hrender List.mem_cons_self

/-- A wrong choice reads as marked beside the correct one. -/
theorem wrong_choice_starred :
    renderQuestion .midterm true 1
        (.closedEnded (.plain "Pick") 1 [⟨true, .plain "y"⟩, ⟨false, .plain "*x"⟩]) =
      .ok ("\\question[1]\nPick\n" ++ beginEnvironment "items" ++ itemLine "* y" ++
        itemLine " *x" ++ endEnvironment "items") ∧
    ¬(starred " *x".toList = true ↔
      true = true ∧ (Choice.mk false (.plain "*x")).isCorrect = true) :=
  ⟨rfl, by decide⟩

end ExamVariants.Latex
