import ExamVariants.Proofs.Latex.ChoiceMark
import ExamVariants.Proofs.Latex.Reading
import Mathlib.Data.List.Chain

namespace ExamVariants.Latex

variable {target : Notation}

/-- What stands before the first place of a mark, and what stands behind the mark. -/
def cutAt? (mark : List Char) : List Char → Option (List Char × List Char)
  | [] => none
  | c :: cs =>
    if mark <+: c :: cs then some ([], (c :: cs).drop mark.length)
    else (cutAt? mark cs).map fun cut => (c :: cut.1, cut.2)

def listingBegin : List Char := "\\begin\x7blstlisting\x7d\n".toList

def listingEnd : List Char := "\\end\x7blstlisting\x7d".toList

/-- What a text lists: from the first line that begins a listing to the first mark that ends one. -/
def listed? (s : String) : Option String :=
  (cutAt? listingBegin s.toList).bind fun opening =>
    (cutAt? listingEnd opening.2).map fun closing => String.ofList closing.1

theorem eq_of_cutAt? {mark cs before behind : List Char}
    (h : cutAt? mark cs = some (before, behind)) : cs = before ++ (mark ++ behind) := by
  induction cs generalizing before with
  | nil => cases h
  | cons c cs ih =>
    rw [cutAt?] at h
    split at h
    · next hprefix =>
      obtain ⟨rest, hrest⟩ := hprefix
      obtain ⟨rfl, rfl⟩ := Prod.mk.inj (Option.some.inj h)
      rw [List.nil_append, ← hrest, List.drop_left]
    · obtain ⟨⟨before', behind'⟩, hcut, hpair⟩ := Option.map_eq_some_iff.mp h
      obtain ⟨rfl, rfl⟩ := Prod.mk.inj hpair
      rw [ih hcut, List.cons_append]

theorem cutAt?_append {mark cs before behind : List Char}
    (h : cutAt? mark cs = some (before, behind)) (rest : List Char) :
    cutAt? mark (cs ++ rest) = some (before, behind ++ rest) := by
  induction cs generalizing before with
  | nil => cases h
  | cons c cs ih =>
    rw [cutAt?] at h
    rw [List.cons_append, cutAt?]
    by_cases hprefix : mark <+: c :: cs
    · rw [if_pos hprefix] at h
      obtain ⟨rfl, rfl⟩ := Prod.mk.inj (Option.some.inj h)
      obtain ⟨behind, hbehind⟩ := hprefix
      rw [← List.cons_append, ← hbehind, List.append_assoc, if_pos (List.prefix_append _ _),
        List.drop_left, List.drop_left]
    · rw [if_neg hprefix] at h
      obtain ⟨⟨before', behind'⟩, hcut, hpair⟩ := Option.map_eq_some_iff.mp h
      obtain ⟨rfl, rfl⟩ := Prod.mk.inj hpair
      have hlength : mark.length ≤ (c :: cs).length := by
        have := congrArg List.length (eq_of_cutAt? hcut)
        simp only [List.length_append, List.length_cons] at this ⊢
        omega
      -- The mark is found in the text, so it is too short to reach into what follows.
      have hnot : ¬ mark <+: c :: (cs ++ rest) := fun hlong =>
        hprefix (List.prefix_of_prefix_length_le hlong (List.prefix_append (c :: cs) rest) hlength)
      rw [if_neg hnot, ih hcut]
      rfl

theorem exists_cutAt?_of_infix {mark cs : List Char} (hne : mark ≠ []) (h : mark <:+: cs) :
    ∃ before behind, cutAt? mark cs = some (before, behind) := by
  induction cs with
  | nil => exact absurd (List.infix_nil.mp h) hne
  | cons c cs ih =>
    rw [cutAt?]
    by_cases hprefix : mark <+: c :: cs
    · exact ⟨_, _, if_pos hprefix⟩
    · obtain ⟨before, behind, hcut⟩ := ih ((List.infix_cons_iff.mp h).resolve_left hprefix)
      exact ⟨c :: before, behind, by rw [if_neg hprefix, hcut]; rfl⟩

theorem cutAt?_line {mark line : List Char} (hline : '\n' ∉ mark) (hmark : ¬ mark <:+: line)
    (rest : List Char) :
    cutAt? mark (line ++ '\n' :: rest) =
      (cutAt? mark rest).map fun cut => (line ++ '\n' :: cut.1, cut.2) := by
  -- A mark that began in the line would lie in it whole or reach over its end.
  have hpass {cs : List Char} (hcs : ¬ mark <:+: cs) : ¬ mark <+: cs ++ '\n' :: rest := by
    rintro ⟨behind, hbehind⟩
    rcases List.append_eq_append_iff.mp hbehind with ⟨x, rfl, -⟩ | ⟨x, rfl, hx⟩
    · exact hcs (List.prefix_append mark x).isInfix
    · cases x with
      | nil => exact hcs (by simp)
      | cons c x =>
        obtain rfl : '\n' = c := (List.cons.inj hx).1
        exact hline (List.mem_append_right _ List.mem_cons_self)
  induction line with
  | nil =>
    have hnot : ¬ mark <+: '\n' :: rest := hpass hmark
    rw [List.nil_append, cutAt?, if_neg hnot]
    rfl
  | cons c line ih =>
    have htail : ¬ mark <:+: line := fun h => hmark (List.infix_cons h)
    have hnot : ¬ mark <+: c :: (line ++ '\n' :: rest) := hpass hmark
    rw [List.cons_append, cutAt?, if_neg hnot, ih htail, Option.map_map]
    rfl

theorem listed?_codeBlock (front : Bool) (body : String) :
    listed? ((if front then "\n\n" else "") ++ codeBlock body) =
      (cutAt? listingEnd (body.toList ++ '\n' :: (listingEnd ++ ['\n']))).map
        fun closing => String.ofList closing.1 := by
  have hwritten : (if front then "\n\n" else "") ++ codeBlock body =
      ((if front then "\n\n" else "") ++
        "\\vspace\x7b0.3cm\x7d\n\\begin\x7blstlisting\x7d\n") ++
          (body ++ "\n\\end\x7blstlisting\x7d\n") := by
    unfold codeBlock
    simp only [String.append_assoc]
  have hopening : cutAt? listingBegin ((if front then "\n\n" else "") ++
      "\\vspace\x7b0.3cm\x7d\n\\begin\x7blstlisting\x7d\n").toList =
        some (((if front then "\n\n" else "") ++ "\\vspace\x7b0.3cm\x7d\n").toList, []) := by
    cases front <;> decide
  have hclosing : (body ++ "\n\\end\x7blstlisting\x7d\n").toList =
      body.toList ++ '\n' :: (listingEnd ++ ['\n']) := by
    rw [String.toList_append]
    exact congrArg (body.toList ++ ·) (by decide)
  rw [listed?, hwritten, String.toList_append, cutAt?_append hopening, hclosing]
  rfl

/-- A block lists its text with the line end behind it, unless the text ends the block itself. -/
theorem listed?_codeBlock_eq_iff (front : Bool) (body : String) :
    listed? ((if front then "\n\n" else "") ++ codeBlock body) = some (body ++ "\n") ↔
      ¬ listingEnd <:+: body.toList := by
  rw [listed?_codeBlock]
  constructor
  · intro h hinfix
    obtain ⟨before, behind, hcut⟩ := exists_cutAt?_of_infix (by decide) hinfix
    rw [cutAt?_append hcut, Option.map_some, Option.some.injEq] at h
    have hlength : before.length = body.toList.length + 1 := by
      simpa using congrArg (fun s : String => s.toList.length) h
    have hbody := congrArg List.length (eq_of_cutAt? hcut)
    rw [List.length_append] at hbody
    omega
  · intro hinfix
    have hend : cutAt? listingEnd (listingEnd ++ ['\n']) = some ([], ['\n']) := by decide
    rw [cutAt?_line (by decide) hinfix, hend]
    simp [String.ofList_append]

/-- No backslash stands in front of an `e`, as it does in the mark that ends a listing. -/
def NoEnd (cs : List Char) : Prop := cs.IsChain fun a b => a = '\\' → b ≠ 'e'

instance (cs : List Char) : Decidable (NoEnd cs) := inferInstanceAs (Decidable (List.IsChain _ _))

theorem not_infix_of_noEnd {cs : List Char} (h : NoEnd cs) : ¬ listingEnd <:+: cs := by
  intro hinfix
  have hmark : NoEnd listingEnd := h.infix hinfix
  exact (List.isChain_cons_cons.mp hmark).1 rfl rfl

theorem noEnd_escapeChar (c : Char) :
    NoEnd (escapeChar c) ∧ (escapeChar c).getLast? ≠ some '\\' := by
  by_cases hc : c ∈ specials
  · have hspecials : ∀ c ∈ specials,
        NoEnd (escapeChar c) ∧ (escapeChar c).getLast? ≠ some '\\' := forall_specials (by decide)
    exact hspecials c hc
  · rw [escapeChar_of_notMem hc]
    refine ⟨List.isChain_singleton _, ?_⟩
    simpa using (ne_of_notMem_specials hc).1

theorem noEnd_escapeText (s : String) : NoEnd (escapeText s).toList := by
  rw [escapeText, String.toList_ofList]
  induction s.toList with
  | nil => exact .nil
  | cons c cs ih =>
    obtain ⟨hchar, hlast⟩ := noEnd_escapeChar c
    rw [List.flatMap_cons]
    refine hchar.append ih fun a ha b hb hbackslash => ?_
    exact absurd (hbackslash ▸ ha) hlast

theorem two_le_length_escapeChar {c : Char} (h : c ∈ specials) : 2 ≤ (escapeChar c).length := by
  have hspecials : ∀ c ∈ specials, 2 ≤ (escapeChar c).length := forall_specials (by decide)
  exact hspecials c h

theorem length_escaped (cs : List Char) :
    cs.length ≤ (cs.flatMap escapeChar).length ∧
      ((cs.flatMap escapeChar).length = cs.length → ∀ c ∈ cs, c ∉ specials) := by
  induction cs with
  | nil => simp
  | cons c cs ih =>
    rw [List.flatMap_cons, List.length_append, List.length_cons]
    by_cases hc : c ∈ specials
    · have htwo := two_le_length_escapeChar hc
      refine ⟨by omega, fun hlength => ?_⟩
      omega
    · rw [escapeChar_of_notMem hc, List.length_singleton]
      refine ⟨by omega, fun hlength => List.forall_mem_cons.mpr ⟨hc, ih.2 ?_⟩⟩
      omega

theorem escapeText_eq_self_iff (s : String) :
    escapeText s = s ↔ ∀ c ∈ s.toList, c ∉ specials := by
  constructor
  · intro h
    apply (length_escaped s.toList).2
    simpa [escapeText] using congrArg (fun s : String => s.toList.length) h
  · intro h
    have hchars : s.toList.flatMap escapeChar = s.toList.flatMap fun c => [c] :=
      List.flatMap_congr fun c hc => escapeChar_of_notMem (h c hc)
    rw [escapeText, hchars, List.flatMap_singleton', String.ofList_toList]

theorem of_check_of_mem {ss : List Style} (hcheck : check target ss = .ok ()) (hcode : .code ∈ ss) :
    ss.count .code = 1 ∧ ∀ s ∈ ss, isCommand s = false := by
  have hpos := List.count_pos_iff.mpr hcode
  rw [check] at hcheck
  split at hcheck
  · cases hcheck
  · next hrefused =>
    simp only [Bool.or_eq_true, Bool.and_eq_true, decide_eq_true_eq, List.any_eq_true, not_or,
      not_and, not_exists] at hrefused
    obtain ⟨honce, hplain⟩ := hrefused
    have hcount : ss.count .code = 1 := by omega
    refine ⟨hcount, fun s hs => ?_⟩
    have hnot := hplain hcount s hs
    simpa [isCommand, and_assoc] using hnot

theorem foldlM_wrap_block {ss : List Style} (honce : ss.count .code = 1)
    (hplain : ∀ s ∈ ss, isCommand s = false) (inner : String) :
    ss.foldlM (fun inner style => wrap target style inner) inner = .ok (codeBlock inner) := by
  have hcode : .code ∈ ss := List.count_pos_iff.mp (by omega)
  obtain ⟨before, after, rfl, hbefore⟩ := List.eq_append_cons_of_mem hcode
  rw [List.count_append, List.count_cons_self, List.count_eq_zero.mpr hbefore] at honce
  have hafter : .code ∉ after := List.count_eq_zero.mp (by omega)
  have hbare {ss : List Style} (hss : .code ∉ ss) (hsub : ∀ s ∈ ss, isCommand s = false) :
      ∀ s ∈ ss, isCommand s = false ∧ s ≠ .code :=
    fun s hs => ⟨hsub s hs, fun heq => hss (heq ▸ hs)⟩
  have hfront : before.foldlM (fun inner style => wrap target style inner) inner = .ok inner :=
    foldlM_wrap_of_bare (hbare hbefore fun s hs => hplain s (List.mem_append_left _ hs)) inner
  have hback : after.foldlM (fun inner style => wrap target style inner) (codeBlock inner) =
      .ok (codeBlock inner) :=
    foldlM_wrap_of_bare
      (hbare hafter fun s hs => hplain s (List.mem_append_right _ (List.mem_cons_of_mem _ hs))) _
  rw [List.foldlM_append, hfront]
  exact hback

theorem leading_ne_newLine (ss : List Style) : StyleTable.leading ss ≠ .newLine := by
  rw [StyleTable.leading]
  cases hfind : ss.find? (· ≠ .newLine) with
  | none => exact Style.noConfusion
  | some s => simpa using List.find?_some hfind

/-- Around a block, text is escaped under `inherit` only. -/
theorem escape_leading {ss : List Style} (hplain : ∀ s ∈ ss, isCommand s = false) (text : String) :
    escape (StyleTable.leading ss) text =
      if StyleTable.leading ss = .inherit then escapeText text else text := by
  have hnewLine := leading_ne_newLine ss
  have hcommand : isCommand (StyleTable.leading ss) = false :=
    StyleTable.leading_of_forall (motive := fun s => isCommand s = false) rfl hplain
  revert hnewLine hcommand
  cases StyleTable.leading ss <;> simp [escape, isCommand]

/-- A block of code whose styles are accepted is always rendered. It lists its text as it is when
the text is passed on and does not hold the end of a listing, or when it is escaped and holds
nothing to escape. -/
theorem code_block_lists_text_iff {l : Leaf} (hcode : .code ∈ l.styles)
    (hcheck : check target l.styles = .ok ()) :
    ∃ out, (styles target).renderLeaf l = .ok out ∧
      (listed? out = some (l.text ++ "\n") ↔
        if StyleTable.leading l.styles = .inherit then ∀ c ∈ l.text.toList, c ∉ specials
        else ¬ listingEnd <:+: l.text.toList) := by
  obtain ⟨honce, hplain⟩ := of_check_of_mem hcheck hcode
  have hleaf := renderLeaf_of_check hcheck
  rw [foldlM_wrap_block honce hplain, escape_leading hplain] at hleaf
  refine ⟨_, hleaf, ?_⟩
  have hfront (body : String) :
      (if l.styles.contains .newLine then "\n\n" ++ codeBlock body else codeBlock body) =
        (if l.styles.contains .newLine then "\n\n" else "") ++ codeBlock body := by
    cases l.styles.contains .newLine <;> simp
  dsimp only
  rw [hfront]
  by_cases hinherit : StyleTable.leading l.styles = .inherit
  · rw [if_pos hinherit, if_pos hinherit, ← escapeText_eq_self_iff,
      (listed?_codeBlock_eq_iff _ _).mpr (not_infix_of_noEnd (noEnd_escapeText l.text)),
      Option.some.injEq, String.append_left_inj]
  · rw [if_neg hinherit, if_neg hinherit]
    exact listed?_codeBlock_eq_iff _ _

/-- A block behind a line break whose text holds markup, and part of the mark that ends it. -/
theorem code_block_lists_text_iff_markup :
    ∃ out, (styles .latexQuiz).renderLeaf
        ⟨"a_b\\end\x7blst\x7d", [.newLine, .code, .inherit]⟩ = .ok out ∧
      listed? out = some "a_b\\end\x7blst\x7d\n" := by
  have hcheck : check .latexQuiz [.newLine, .code, .inherit] = .ok () := rfl
  obtain ⟨out, hout, hiff⟩ := code_block_lists_text_iff
    (l := ⟨"a_b\\end\x7blst\x7d", [.newLine, .code, .inherit]⟩) (by decide) hcheck
  exact ⟨out, hout, hiff.mpr (by decide +kernel)⟩

/-- A text that ends its own block, and a text that `inherit` escapes in a block. Both are accepted
and rendered, and neither is listed as it is. -/
theorem code_block_lists_other_text :
    (check .latexMidterm [.code] = .ok () ∧ ∃ out,
      (styles .latexMidterm).renderLeaf ⟨"a\\end\x7blstlisting\x7db", [.code]⟩ = .ok out ∧
        listed? out = some "a" ∧ listed? out ≠ some "a\\end\x7blstlisting\x7db\n") ∧
    check .latexMidterm [.inherit, .code] = .ok () ∧ ∃ out,
      (styles .latexMidterm).renderLeaf ⟨"a_b", [.inherit, .code]⟩ = .ok out ∧
        listed? out = some "a\\_b\n" ∧ listed? out ≠ some "a_b\n" := by
  refine ⟨⟨rfl, _, rfl, ?_⟩, rfl, _, rfl, ?_⟩
  · decide +kernel
  · decide +kernel

end ExamVariants.Latex
