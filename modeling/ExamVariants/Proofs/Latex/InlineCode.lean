import ExamVariants.Proofs.Latex.ChoiceMark
import Mathlib.Data.Finset.Card

namespace ExamVariants.Latex

def delimitersIn (s : String) : Finset Char :=
  inlineDelimiters.toFinset.filter (· ∈ s.toList)

theorem mem_delimitersIn {s : String} {d : Char} :
    d ∈ delimitersIn s ↔ d ∈ inlineDelimiters ∧ d ∈ s.toList := by
  simp [delimitersIn]

theorem card_inlineDelimiters : inlineDelimiters.toFinset.card = 5 := rfl

theorem delimitersIn_subset (s : String) : delimitersIn s ⊆ inlineDelimiters.toFinset :=
  Finset.filter_subset _ _

theorem delimitersIn_append (s t : String) :
    delimitersIn (s ++ t) = delimitersIn s ∪ delimitersIn t := by
  ext d
  simp only [Finset.mem_union, mem_delimitersIn, String.toList_append, List.mem_append]
  tauto

theorem find?_free_eq_none_iff {s : String} :
    (inlineDelimiters.find? fun d => !s.toList.contains d) = none ↔
      5 ≤ (delimitersIn s).card := by
  rw [List.find?_eq_none]
  constructor
  · intro h
    have hall : delimitersIn s = inlineDelimiters.toFinset := by
      apply Finset.filter_true_of_mem
      intro d hd
      simpa using h d (List.mem_toFinset.mp hd)
    rw [hall, card_inlineDelimiters]
  · intro h d hd
    have hall := Finset.eq_of_subset_of_card_le (delimitersIn_subset s) (card_inlineDelimiters ▸ h)
    have hmem : d ∈ delimitersIn s := hall ▸ List.mem_toFinset.mpr hd
    simpa using (mem_delimitersIn.mp hmem).2

/-- Code within a line: its delimiter, and the text between the two delimiters. -/
structure InlineListing where
  delimiter : Char
  body : String

namespace InlineListing

def written (i : InlineListing) : String :=
  "\\lstinline" ++ String.singleton i.delimiter ++ i.body ++ String.singleton i.delimiter

/-- The character behind the command opens the code, and the next one like it closes it. -/
def read? (cs : List Char) : Option (List Char × List Char) :=
  match cs.dropPrefix? "\\lstinline".toList with
  | some (d :: cs) =>
    match cs.dropWhile (· ≠ d) with
    | _ :: rest => some (cs.takeWhile (· ≠ d), rest)
    | [] => none
  | _ => none

theorem toList_written (i : InlineListing) :
    i.written.toList = "\\lstinline".toList ++ i.delimiter :: (i.body.toList ++ [i.delimiter]) := by
  simp [written, String.toList_append]

theorem read?_written {i : InlineListing} (h : i.delimiter ∉ i.body.toList) (rest : List Char) :
    read? (i.written.toList ++ rest) = some (i.body.toList, rest) := by
  have hbody : ∀ c ∈ i.body.toList, decide (c ≠ i.delimiter) = true :=
    fun c hc => decide_eq_true fun heq => h (heq ▸ hc)
  have hcommand : (i.written.toList ++ rest).dropPrefix? "\\lstinline".toList =
      some (i.delimiter :: (i.body.toList ++ i.delimiter :: rest)) := by
    rw [List.dropPrefix?_eq_some_iff]
    exact ⟨"\\lstinline".toList, by simp [toList_written], beq_self_eq_true _⟩
  rw [read?, hcommand]
  dsimp only
  rw [List.dropWhile_append_of_pos hbody, List.takeWhile_append_of_pos hbody,
    List.dropWhile_cons_of_neg (by simp), List.takeWhile_cons_of_neg (by simp), List.append_nil]

theorem delimitersIn_written {i : InlineListing} (h : i.delimiter ∈ inlineDelimiters) :
    delimitersIn i.written = insert i.delimiter (delimitersIn i.body) := by
  have hcommand : delimitersIn "\\lstinline" = ∅ := by decide
  have hsingle : delimitersIn (String.singleton i.delimiter) = {i.delimiter} := by
    ext d
    simp only [mem_delimitersIn, String.toList_singleton, List.mem_singleton,
      Finset.mem_singleton]
    exact and_iff_right_of_imp fun hd => hd ▸ h
  rw [written, delimitersIn_append, delimitersIn_append, delimitersIn_append, hcommand, hsingle]
  ext d
  simp only [Finset.mem_union, Finset.mem_singleton, Finset.mem_insert, Finset.notMem_empty]
  tauto

end InlineListing

theorem exists_wrap_of_ne (target : Notation) {s : Style} (hcode : s ≠ .code)
    (hinline : s ≠ .inlineCode) (inner : String) :
    ∃ outer, wrap target s inner = .ok outer ∧ IsPiece inner outer ∧
      delimitersIn outer = delimitersIn inner := by
  have hgroup (command : String) (hcommand : delimitersIn command = ∅) :
      IsPiece inner (command ++ braced inner) ∧
        delimitersIn (command ++ braced inner) = delimitersIn inner := by
    have hopen : delimitersIn "\x7b" = ∅ := by decide
    have hclose : delimitersIn "\x7d" = ∅ := by decide
    refine ⟨⟨command ++ "\x7b", "\x7d", by simp only [braced, String.append_assoc]⟩, ?_⟩
    simp only [braced, delimitersIn_append, hcommand, hopen, hclose, Finset.empty_union,
      Finset.union_empty]
  cases s with
  | code => exact absurd rfl hcode
  | inlineCode => exact absurd rfl hinline
  | bold => exact ⟨_, rfl, hgroup "\\textbf" (by decide)⟩
  | italic => exact ⟨_, rfl, hgroup "\\textit" (by decide)⟩
  | _ => exact ⟨inner, rfl, IsPiece.refl inner, rfl⟩

/-- The styles wrap a text in turn and give `out`; the inline listings that they write come from the
innermost. -/
inductive WrapsTo (target : Notation) : List Style → String → List InlineListing → String → Prop
  | done (s : String) : WrapsTo target [] s [] s
  | inline {ss : List Style} {is : List InlineListing} {out : String} (i : InlineListing)
      (h : WrapsTo target ss i.written is out) :
      WrapsTo target (.inlineCode :: ss) i.body (i :: is) out
  | other {s : Style} {ss : List Style} {inner outer : String} {is : List InlineListing}
      {out : String} (hs : s ≠ .inlineCode) (hwrap : wrap target s inner = .ok outer)
      (h : WrapsTo target ss outer is out) : WrapsTo target (s :: ss) inner is out

namespace WrapsTo

variable {target : Notation} {ss : List Style} {inner out : String} {is : List InlineListing}

theorem length_eq (h : WrapsTo target ss inner is out) : is.length = ss.count .inlineCode := by
  induction h with
  | done s => rfl
  | inline i _ ih => rw [List.length_cons, ih, List.count_cons_self]
  | other hs _ _ ih => rw [ih, List.count_cons_of_ne hs]

theorem isPiece (h : WrapsTo target ss inner is out) (hcode : .code ∉ ss) :
    IsPiece inner out ∧ ∀ i ∈ is, IsPiece i.written out := by
  induction h with
  | done s => exact ⟨IsPiece.refl s, by simp⟩
  | inline i _ ih =>
    obtain ⟨hwritten, hrest⟩ := ih fun hc => hcode (List.mem_cons_of_mem _ hc)
    have hbody : IsPiece i.body i.written :=
      ⟨"\\lstinline" ++ String.singleton i.delimiter, String.singleton i.delimiter, rfl⟩
    exact ⟨hbody.trans hwritten, List.forall_mem_cons.mpr ⟨hwritten, hrest⟩⟩
  | @other s _ inner _ _ _ hs hwrap _ ih =>
    obtain ⟨houter, hrest⟩ := ih fun hc => hcode (List.mem_cons_of_mem _ hc)
    have hne : s ≠ .code := fun hc => hcode (hc ▸ List.mem_cons_self)
    obtain ⟨outer', houter', hpiece, -⟩ := exists_wrap_of_ne target hne hs inner
    obtain rfl := Except.ok.inj (hwrap.symm.trans houter')
    exact ⟨hpiece.trans houter, hrest⟩

end WrapsTo

/-- Each listing has a delimiter that neither its text nor another listing has. -/
structure Delimited (is : List InlineListing) : Prop where
  nodup : (is.map InlineListing.delimiter).Nodup
  mem : ∀ i ∈ is, i.delimiter ∈ inlineDelimiters
  free : ∀ i ∈ is, i.delimiter ∉ i.body.toList

/-- Inline code takes a free delimiter, which the text then holds besides those that it held. -/
theorem wrap_inlineCode_cases (target : Notation) (inner : String) :
    (∃ i : InlineListing, i.body = inner ∧ i.delimiter ∈ inlineDelimiters ∧
        i.delimiter ∉ inner.toList ∧ wrap target .inlineCode inner = .ok i.written ∧
        (delimitersIn i.written).card = (delimitersIn inner).card + 1) ∨
      5 ≤ (delimitersIn inner).card ∧
        wrap target .inlineCode inner = .error (.noInlineDelimiter target) := by
  cases hfind : inlineDelimiters.find? fun d => !inner.toList.contains d with
  | none => exact .inr ⟨find?_free_eq_none_iff.mp hfind, by simp only [wrap, hfind]⟩
  | some d =>
    have hmem := List.mem_of_find?_eq_some hfind
    have hfree : d ∉ inner.toList := by simpa using List.find?_some hfind
    have hnew : d ∉ delimitersIn inner := fun hd => hfree (mem_delimitersIn.mp hd).2
    refine .inl ⟨⟨d, inner⟩, rfl, hmem, hfree, ?_, ?_⟩
    · simp only [wrap, hfind]
      rfl
    · rw [InlineListing.delimitersIn_written hmem, Finset.card_insert_of_notMem hnew]

/-- While a delimiter is left for every style of inline code, the wraps succeed, and the delimiters
that they take are new to the text. -/
theorem foldlM_wrap_of_le (target : Notation) {ss : List Style} (hcode : .code ∉ ss)
    {inner : String} (h : ss.count .inlineCode + (delimitersIn inner).card ≤ 5) :
    ∃ out is, ss.foldlM (fun inner style => wrap target style inner) inner = .ok out ∧
      WrapsTo target ss inner is out ∧ Delimited is ∧
      ∀ i ∈ is, i.delimiter ∉ delimitersIn inner := by
  induction ss generalizing inner with
  | nil => exact ⟨inner, [], rfl, .done inner, ⟨List.nodup_nil, by simp, by simp⟩, by simp⟩
  | cons s ss ih =>
    have hrest : .code ∉ ss := fun hs => hcode (List.mem_cons_of_mem s hs)
    rw [List.foldlM_cons]
    by_cases hs : s = .inlineCode
    · subst hs
      rw [List.count_cons_self] at h
      rcases wrap_inlineCode_cases target inner with
        ⟨i, rfl, hmem, hfree, hwrap, hcard⟩ | ⟨hfull, -⟩
      -- One style less is left and the text holds one delimiter more, so the sum stays.
      · have hleft : ss.count .inlineCode + (delimitersIn i.written).card ≤ 5 := by omega
        obtain ⟨out, is, hout, hwraps, ⟨hnodup, hmems, hfrees⟩, hnew⟩ := ih hrest hleft
        rw [InlineListing.delimitersIn_written hmem] at hnew
        refine ⟨out, i :: is, ?_, .inline i hwraps, ⟨?_, ?_, ?_⟩, ?_⟩
        · rw [hwrap]
          exact hout
        · refine List.nodup_cons.mpr ⟨fun htaken => ?_, hnodup⟩
          obtain ⟨j, hj, hsame⟩ := List.mem_map.mp htaken
          exact hnew j hj (hsame ▸ Finset.mem_insert_self _ _)
        · exact List.forall_mem_cons.mpr ⟨hmem, hmems⟩
        · exact List.forall_mem_cons.mpr ⟨hfree, hfrees⟩
        · refine List.forall_mem_cons.mpr ⟨fun hd => hfree (mem_delimitersIn.mp hd).2, ?_⟩
          exact fun j hj hd => hnew j hj (Finset.mem_insert_of_mem hd)
      · omega
    · have hne : s ≠ .code := fun hc => hcode (hc ▸ List.mem_cons_self)
      obtain ⟨outer, houter, -, hsame⟩ := exists_wrap_of_ne target hne hs inner
      rw [List.count_cons_of_ne hs, ← hsame] at h
      obtain ⟨out, is, hout, hwraps, hdelimited, hnew⟩ := ih hrest h
      refine ⟨out, is, ?_, .other hs houter hwraps, hdelimited, hsame ▸ hnew⟩
      rw [houter]
      exact hout

theorem foldlM_wrap_of_lt (target : Notation) {ss : List Style} (hcode : .code ∉ ss)
    {inner : String} (h : 5 < ss.count .inlineCode + (delimitersIn inner).card) :
    ss.foldlM (fun inner style => wrap target style inner) inner =
      .error (.noInlineDelimiter target) := by
  induction ss generalizing inner with
  | nil =>
    have hle := Finset.card_le_card (delimitersIn_subset inner)
    rw [card_inlineDelimiters] at hle
    rw [List.count_nil, Nat.zero_add] at h
    exact absurd h (Nat.not_lt.mpr hle)
  | cons s ss ih =>
    have hrest : .code ∉ ss := fun hs => hcode (List.mem_cons_of_mem s hs)
    rw [List.foldlM_cons]
    by_cases hs : s = .inlineCode
    · subst hs
      rw [List.count_cons_self] at h
      rcases wrap_inlineCode_cases target inner with ⟨i, rfl, -, -, hwrap, hcard⟩ | ⟨-, hwrap⟩
      · rw [hwrap]
        exact ih hrest (by omega)
      · rw [hwrap]
        rfl
    · have hne : s ≠ .code := fun hc => hcode (hc ▸ List.mem_cons_self)
      obtain ⟨outer, houter, -, hsame⟩ := exists_wrap_of_ne target hne hs inner
      rw [List.count_cons_of_ne hs, ← hsame] at h
      rw [houter]
      exact ih hrest h

theorem check_of_notMem (target : Notation) {ss : List Style} (h : .code ∉ ss) :
    check target ss = .ok () := by
  rw [check, List.count_eq_zero.mpr h]
  rfl

/-- Inline code without blocks is rendered as long as a delimiter is left for each of its styles
besides those that the escaped text holds. Then each of the listings, from the innermost, has a
delimiter of its own, and ends where it was closed. -/
theorem inline_code_takes_free_delimiters (target : Notation) {l : Leaf}
    (hcode : .code ∉ l.styles) :
    let escaped := escape (StyleTable.leading l.styles) l.text
    let needed := l.styles.count .inlineCode + (delimitersIn escaped).card
    ((∃ out, (styles target).renderLeaf l = .ok out) ↔ needed ≤ 5) ∧
      (¬ needed ≤ 5 → (styles target).renderLeaf l = .error (.noInlineDelimiter target)) ∧
      ∀ out, (styles target).renderLeaf l = .ok out → ∃ is wrapped,
        WrapsTo target l.styles escaped is wrapped ∧
        out = (if l.styles.contains .newLine then "\n\n" ++ wrapped else wrapped) ∧
        is.length = l.styles.count .inlineCode ∧ Delimited is ∧
        ∀ i ∈ is, IsPiece i.written out ∧
          ∀ rest, InlineListing.read? (i.written.toList ++ rest) = some (i.body.toList, rest) := by
  intro escaped needed
  -- No check refuses inline code, so a leaf fails only where its wraps do.
  have hleaf := renderLeaf_of_check (check_of_notMem target hcode)
  by_cases hneeded : needed ≤ 5
  · obtain ⟨wrapped, is, hwrapped, hwraps, hdelimited, -⟩ :=
      foldlM_wrap_of_le target hcode hneeded
    rw [hwrapped] at hleaf
    refine ⟨iff_of_true ⟨_, hleaf⟩ hneeded, fun hlt => absurd hneeded hlt, fun out hout => ?_⟩
    obtain rfl := Except.ok.inj (hleaf.symm.trans hout)
    refine ⟨is, wrapped, hwraps, rfl, hwraps.length_eq, hdelimited, fun i hi => ⟨?_, ?_⟩⟩
    · have hpiece := (hwraps.isPiece hcode).2 i hi
      split
      · exact hpiece.append_left _
      · exact hpiece
    · exact InlineListing.read?_written (hdelimited.free i hi)
  · rw [foldlM_wrap_of_lt target hcode (Nat.lt_of_not_le hneeded)] at hleaf
    refine ⟨iff_of_false ?_ hneeded, fun _ => hleaf, ?_⟩
    · rintro ⟨out, hout⟩
      cases hleaf.symm.trans hout
    · intro out hout
      cases hleaf.symm.trans hout

/-- Two nested listings with a text that holds two delimiters, and two around a text with four. -/
theorem inline_code_takes_free_delimiters_nested :
    (∃ is wrapped, WrapsTo .latexQuiz [.inlineCode, .bold, .inlineCode] "a!b|c" is wrapped ∧
      "\\lstinline@\\textbf\x7b\\lstinline+a!b|c+\x7d@" = wrapped ∧ is.length = 2 ∧
      Delimited is) ∧
    (styles .latexQuiz).renderLeaf ⟨"!|+@", [.inlineCode, .inlineCode]⟩ =
      .error (.noInlineDelimiter .latexQuiz) := by
  have hout : (styles .latexQuiz).renderLeaf ⟨"a!b|c", [.inlineCode, .bold, .inlineCode]⟩ =
      .ok "\\lstinline@\\textbf\x7b\\lstinline+a!b|c+\x7d@" := by decide +kernel
  constructor
  · obtain ⟨is, wrapped, hwraps, hwritten, hlength, hdelimited, -⟩ :=
      (inline_code_takes_free_delimiters .latexQuiz (by decide)).2.2 _ hout
    exact ⟨is, wrapped, hwraps, hwritten, hlength, hdelimited⟩
  · exact (inline_code_takes_free_delimiters .latexQuiz (by decide)).2.1 (by decide +kernel)

end ExamVariants.Latex
