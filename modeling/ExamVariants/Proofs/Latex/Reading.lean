import ExamVariants.Latex.Styles
import ExamVariants.Proofs.Outcome
import ExamVariants.Proofs.Style.Leaves
import ExamVariants.Proofs.Style.Marks

namespace ExamVariants.Latex

/-- The characters that are no text where they stand. -/
def specials : List Char :=
  ['\\', '\x7b', '\x7d', '%', '$', '&', '#', '_', '^', '~', '<', '>', '|']

/-- The characters that are text behind a backslash. -/
def escapables : List Char := ['#', '&', '%', '\x7b', '\x7d', '$', '_']

/-- The commands that style the group behind them. -/
def groupCommand? : String → Option Style
  | "textbf" => some .bold
  | "textit" => some .italic
  | _ => none

/-- The commands that stand for a character, with an empty group behind them. -/
def charCommand? : String → Option Char
  | "textbackslash" => some '\\'
  | "textasciitilde" => some '~'
  | "textasciicircum" => some '^'
  | "textless" => some '<'
  | "textgreater" => some '>'
  | "textbar" => some '|'
  | _ => none

/-- What the character to come belongs to; the name of a command is kept from its latest letter. -/
inductive Place where
  | text
  | backslash
  | command (name : List Char)
  /-- The empty group behind the command for a character. -/
  | emptyGroup (c : Char)
  deriving DecidableEq, Repr

/-- The place, and the styles of the groups that are open from the innermost. -/
structure Reader where
  place : Place
  groups : List Style
  deriving DecidableEq, Repr

namespace Reader

/-- A brace behind the name of a command opens the group of a style or of a character. -/
def openGroup (name : String) (groups : List Style) : Option (Reader × List (Item Style)) :=
  match groupCommand? name, charCommand? name with
  | some s, _ => some (⟨.text, s :: groups⟩, [.opened s])
  | none, some c => some (⟨.emptyGroup c, groups⟩, [])
  | none, none => none

def closeGroup : List Style → Option (Reader × List (Item Style))
  | [] => none
  | s :: groups => some (⟨.text, groups⟩, [.closed s])

def step (r : Reader) (c : Char) : Option (Reader × List (Item Style)) :=
  match r.place with
  | .text =>
    if c = '\\' then some (⟨.backslash, r.groups⟩, [])
    else if c = '\x7d' then closeGroup r.groups
    else if c ∈ specials then none
    else some (⟨.text, r.groups⟩, [.char c])
  | .backslash =>
    if c.isAlpha then some (⟨.command [c], r.groups⟩, [])
    else if c ∈ escapables then some (⟨.text, r.groups⟩, [.char c])
    else none
  | .command name =>
    if c.isAlpha then some (⟨.command (c :: name), r.groups⟩, [])
    else if c = '\x7b' then openGroup (String.ofList name.reverse) r.groups
    else none
  | .emptyGroup d => if c = '\x7d' then some (⟨.text, r.groups⟩, [.char d]) else none

end Reader

def read (s : String) : Option (List (Item Style)) :=
  match readFrom Reader.step ⟨.text, []⟩ s.toList with
  | some (⟨.text, []⟩, is) => some is
  | _ => none

/-- Whether the next character is escaped, and how many braces are open. -/
structure Braces where
  escaped : Bool
  depth : Nat
  deriving DecidableEq, Repr

/-- Refuses a brace that closes nothing, and any other special character that is not escaped. -/
def Braces.step (b : Braces) (c : Char) : Option Braces :=
  if b.escaped then some ⟨false, b.depth⟩
  else if c = '\\' then some ⟨true, b.depth⟩
  else if c = '\x7b' then some ⟨false, b.depth + 1⟩
  else if c = '\x7d' then if b.depth = 0 then none else some ⟨false, b.depth - 1⟩
  else if c ∈ specials then none
  else some b

/-- The braces without a backslash are balanced, and all other special characters have one. -/
def Balanced (s : String) : Prop := s.toList.foldlM Braces.step ⟨false, 0⟩ = some ⟨false, 0⟩

instance (s : String) : Decidable (Balanced s) := inferInstanceAs (Decidable (_ = _))

/-- Checked one special character after the other, where `decide` would take all characters. -/
theorem forall_specials {motive : Char → Prop} [DecidablePred motive]
    (h : specials.all (fun c => motive c) = true) : ∀ c ∈ specials, motive c := fun c hc =>
  of_decide_eq_true (List.all_eq_true.mp h c hc)

theorem ne_of_notMem_specials {c : Char} (h : c ∉ specials) :
    c ≠ '\\' ∧ c ≠ '\x7b' ∧ c ≠ '\x7d' := by
  refine ⟨?_, ?_, ?_⟩ <;> rintro rfl <;> exact h (by decide)

namespace Reader

def braces (r : Reader) : Braces :=
  match r.place with
  | .backslash => ⟨true, r.groups.length⟩
  | .emptyGroup _ => ⟨false, r.groups.length + 1⟩
  | _ => ⟨false, r.groups.length⟩

theorem notMem_specials_of_isAlpha {c : Char} (h : c.isAlpha = true) : c ∉ specials := by
  intro hc
  have hspecials : ∀ c ∈ specials, c.isAlpha = false := forall_specials (by decide)
  cases h.symm.trans (hspecials c hc)

theorem braces_step_of_notMem {groups : List Style} {c : Char} (h : c ∉ specials) :
    Braces.step ⟨false, groups.length⟩ c = some ⟨false, groups.length⟩ := by
  simp [Braces.step, ne_of_notMem_specials h, h]

theorem braces_step {r r' : Reader} {c : Char} {is : List (Item Style)}
    (h : r.step c = some (r', is)) : r.braces.step c = some r'.braces := by
  obtain ⟨place, groups⟩ := r
  cases place with
  | text =>
    simp only [step] at h
    split_ifs at h with hbackslash hclose hspecial
    · obtain ⟨rfl, -⟩ := Prod.mk.inj (Option.some.inj h)
      rw [hbackslash]
      rfl
    · cases groups with
      | nil => cases h
      | cons s groups =>
        obtain ⟨rfl, -⟩ := Prod.mk.inj (Option.some.inj h)
        rw [hclose]
        rfl
    · obtain ⟨rfl, -⟩ := Prod.mk.inj (Option.some.inj h)
      exact braces_step_of_notMem hspecial
  | backslash =>
    simp only [step] at h
    split_ifs at h with halpha hescapable
    · obtain ⟨rfl, -⟩ := Prod.mk.inj (Option.some.inj h)
      rfl
    · obtain ⟨rfl, -⟩ := Prod.mk.inj (Option.some.inj h)
      rfl
  | command name =>
    simp only [step] at h
    split_ifs at h with halpha hopen
    · obtain ⟨rfl, -⟩ := Prod.mk.inj (Option.some.inj h)
      exact braces_step_of_notMem (notMem_specials_of_isAlpha halpha)
    · rw [openGroup] at h
      split at h
      · obtain ⟨rfl, -⟩ := Prod.mk.inj (Option.some.inj h)
        rw [hopen]
        rfl
      · obtain ⟨rfl, -⟩ := Prod.mk.inj (Option.some.inj h)
        rw [hopen]
        rfl
      · cases h
  | emptyGroup d =>
    simp only [step] at h
    split_ifs at h with hclose
    obtain ⟨rfl, -⟩ := Prod.mk.inj (Option.some.inj h)
    rw [hclose]
    rfl

theorem braces_readFrom {r r' : Reader} {cs : List Char} {is : List (Item Style)}
    (h : readFrom step r cs = some (r', is)) :
    cs.foldlM Braces.step r.braces = some r'.braces := by
  induction cs generalizing r is with
  | nil =>
    obtain ⟨rfl, -⟩ := Prod.mk.inj (Option.some.inj h)
    rfl
  | cons c cs ih =>
    obtain ⟨s, first, rest, hstep, hrest, -⟩ := readFrom_cons_eq_some h
    rw [List.foldlM_cons, braces_step hstep]
    exact ih hrest

end Reader

theorem readFrom_of_read {s : String} {is : List (Item Style)} (h : read s = some is) :
    readFrom Reader.step ⟨.text, []⟩ s.toList = some (⟨.text, []⟩, is) := by
  rw [read] at h
  split at h
  · obtain rfl := Option.some.inj h
    assumption
  · cases h

theorem balanced_of_read {s : String} {is : List (Item Style)} (h : read s = some is) :
    Balanced s :=
  Reader.braces_readFrom (readFrom_of_read h)

theorem escapeChar_of_notMem {c : Char} (h : c ∉ specials) : escapeChar c = [c] := by
  fun_cases escapeChar c
  case case14 => rfl
  all_goals exact absurd (by decide) h

theorem readFrom_escapeChar (groups : List Style) (c : Char) :
    readFrom Reader.step ⟨.text, groups⟩ (escapeChar c) = some (⟨.text, groups⟩, [.char c]) := by
  by_cases hc : c ∈ specials
  · -- Each escape of a special character is read to its end.
    revert hc
    revert c
    simp only [specials, List.forall_mem_cons]
    exact ⟨rfl, rfl, rfl, rfl, rfl, rfl, rfl, rfl, rfl, rfl, rfl, rfl, rfl, by simp⟩
  · rw [escapeChar_of_notMem hc]
    simp [readFrom, Reader.step, ne_of_notMem_specials hc, hc]

/-- The text is read within any groups, and leaves them open. -/
def ReadsInGroups (s : String) (is : List (Item Style)) : Prop :=
  ∀ groups, Reads Reader.step ⟨.text, groups⟩ s is

theorem read_of_readsInGroups {s : String} {is : List (Item Style)} (h : ReadsInGroups s is) :
    read s = some is := by
  have hread : readFrom Reader.step ⟨.text, []⟩ s.toList = some (⟨.text, []⟩, is) := h []
  rw [read, hread]

theorem escapeText_reads (s : String) : ReadsInGroups (escapeText s) (s.toList.map .char) :=
  fun groups => reads_escaped (readFrom_escapeChar groups) s

theorem group_reads {command : String} {s : Style}
    (hcommand : ∀ groups, readFrom Reader.step ⟨.text, groups⟩ (command ++ "\x7b").toList =
      some (⟨.text, s :: groups⟩, [.opened s]))
    {inner : String} {is : List (Item Style)} (h : ReadsInGroups inner is) :
    ReadsInGroups (command ++ braced inner) (Item.around [s] is) := by
  intro groups
  have hclose : readFrom Reader.step ⟨.text, s :: groups⟩ "\x7d".toList =
      some (⟨.text, groups⟩, [.closed s]) := rfl
  rw [Reads, braced, ← String.append_assoc, ← String.append_assoc, String.toList_append,
    String.toList_append]
  exact readFrom_append (readFrom_append (hcommand groups) (h (s :: groups))) hclose

def textStyles : List Style := [.bold, .italic, .inherit]

def marks : Style → List Style
  | .bold => [.bold]
  | .italic => [.italic]
  | _ => []

/-- What a leaf reads as: its characters within the groups of its styles. -/
def leafItems (l : Leaf) : List (Item Style) :=
  Item.styled marks l.styles (l.text.toList.map .char)

theorem escape_of_mem {s : Style} (hs : s ∈ textStyles) (text : String) :
    escape s text = escapeText text := by
  simp only [textStyles, List.mem_cons, List.not_mem_nil, or_false] at hs
  rcases hs with rfl | rfl | rfl <;> rfl

theorem wrap_reads (target : Notation) {s : Style} (hs : s ∈ textStyles) {inner : String}
    {is : List (Item Style)} (h : ReadsInGroups inner is) :
    ∃ outer, wrap target s inner = .ok outer ∧ ReadsInGroups outer (Item.around (marks s) is) := by
  simp only [textStyles, List.mem_cons, List.not_mem_nil, or_false] at hs
  rcases hs with rfl | rfl | rfl
  · exact ⟨_, rfl, group_reads (fun _ => rfl) h⟩
  · exact ⟨_, rfl, group_reads (fun _ => rfl) h⟩
  · exact ⟨inner, rfl, h⟩

theorem foldlM_wrap_reads (target : Notation) {ss : List Style} (hss : ss ⊆ textStyles)
    {inner : String} {is : List (Item Style)} (h : ReadsInGroups inner is) :
    ∃ outer, ss.foldlM (fun inner s => wrap target s inner) inner = .ok outer ∧
      ReadsInGroups outer (Item.styled marks ss is) := by
  induction ss generalizing inner is with
  | nil => exact ⟨inner, rfl, h⟩
  | cons s ss ih =>
    obtain ⟨hs, hss⟩ := List.cons_subset.mp hss
    obtain ⟨mid, hmid, hreads⟩ := wrap_reads target hs h
    obtain ⟨outer, houter, hreads⟩ := ih hss hreads
    refine ⟨outer, ?_, hreads⟩
    rw [List.foldlM_cons, hmid]
    exact houter

theorem renderLeaf_reads (target : Notation) {l : Leaf} (hl : l.styles ⊆ textStyles) :
    ∃ out, (styles target).renderLeaf l = .ok out ∧ ReadsInGroups out (leafItems l) := by
  have hnewLine : l.styles.contains .newLine = false := by
    have hmem : .newLine ∉ l.styles := fun hmem => absurd (hl hmem) (by decide)
    simpa using hmem
  have hcheck : check target l.styles = .ok () := by
    have hcode : l.styles.count .code = 0 :=
      List.count_eq_zero.mpr fun hmem => absurd (hl hmem) (by decide)
    rw [check, hcode]
    rfl
  have hleading : StyleTable.leading l.styles ∈ textStyles :=
    StyleTable.leading_of_forall (by decide) hl
  obtain ⟨out, hout, hreads⟩ := foldlM_wrap_reads target hl (escapeText_reads l.text)
  refine ⟨out, ?_, hreads⟩
  have hescape : (styles target).escape (StyleTable.leading l.styles) l.text =
      .ok (escapeText l.text) := congrArg Except.ok (escape_of_mem hleading l.text)
  refine bind_eq_ok_iff.mpr ⟨(), hcheck, bind_eq_ok_iff.mpr ⟨_, hescape,
    bind_eq_ok_iff.mpr ⟨out, hout, ?_⟩⟩⟩
  rw [hnewLine]
  rfl

theorem renderLeaves_reads (target : Notation) {ls : List Leaf}
    (hls : ∀ l ∈ ls, l.styles ⊆ textStyles) :
    ∃ out, (styles target).renderLeaves ls = .ok out ∧ ReadsInGroups out (ls.flatMap leafItems) := by
  induction ls with
  | nil => exact ⟨"", rfl, fun groups => rfl⟩
  | cons l ls ih =>
    obtain ⟨first, hfirst, hreads⟩ := renderLeaf_reads target (hls l List.mem_cons_self)
    obtain ⟨rest, hrest, hreads'⟩ := ih fun l' hl' => hls l' (List.mem_cons_of_mem l hl')
    refine ⟨first ++ rest, ?_, fun groups => (hreads groups).append (hreads' groups)⟩
    rw [StyleTable.renderLeaves, hfirst, hrest]
    rfl

theorem escapeText_injective : Function.Injective escapeText := by
  intro s t h
  have hread := read_of_readsInGroups (escapeText_reads s)
  rw [h, read_of_readsInGroups (escapeText_reads t)] at hread
  have htext := congrArg Item.text (Option.some.inj hread)
  rwa [Item.text_chars, Item.text_chars, eq_comm] at htext

theorem escapeText_append (s t : String) : escapeText (s ++ t) = escapeText s ++ escapeText t := by
  simp [escapeText]

/-- Running text is rendered and reads back: as its leaves, each within the groups of its styles,
which nest and hold all characters of the leaves as characters. No special character is left
without a backslash, apart from the braces of the groups. Escaping loses nothing and goes character
by character. -/
theorem running_text_reads_back (target : Notation) :
    (∀ s : Segment, (∀ l ∈ s.leaves, l.styles ⊆ textStyles) →
      ∃ out is, (styles target).render s = .ok out ∧ read out = some is ∧
        is = s.leaves.flatMap leafItems ∧ Item.Nested is ∧
        Item.text is = String.join (s.leaves.map Leaf.text) ∧ Balanced out) ∧
    Function.Injective escapeText ∧
    ∀ s t, escapeText (s ++ t) = escapeText s ++ escapeText t := by
  refine ⟨fun s hs => ?_, escapeText_injective, escapeText_append⟩
  obtain ⟨out, hout, hreads⟩ := renderLeaves_reads target hs
  have hread := read_of_readsInGroups hreads
  rw [← StyleTable.render_eq_renderLeaves] at hout
  refine ⟨out, _, hout, hread, rfl, ?_, ?_, balanced_of_read hread⟩
  · exact Item.nested_flatMap fun l _ => Item.nested_styled _ _ (Item.nested_chars _)
  · exact Item.text_flatMap fun l _ => (Item.text_styled _ _ _).trans (Item.text_chars _)

/-- Texts that look like the markup around them. -/
theorem running_text_reads_back_commands :
    ∃ out is, (styles .latexMidterm).render (.compound
        [.simple "\\textbf\x7ba" [.bold, .italic], .compound [.simple "\x7d 5% |_" [.inherit]]]) =
          .ok out ∧
      read out = some is ∧ Item.text is = "\\textbf\x7ba\x7d 5% |_" ∧ Balanced out := by
  obtain ⟨out, is, hout, hread, -, -, htext, hbalanced⟩ :=
    (running_text_reads_back .latexMidterm).1 (.compound
      [.simple "\\textbf\x7ba" [.bold, .italic], .compound [.simple "\x7d 5% |_" [.inherit]]])
      (by decide)
  exact ⟨out, is, hout, hread, htext, hbalanced⟩

end ExamVariants.Latex
