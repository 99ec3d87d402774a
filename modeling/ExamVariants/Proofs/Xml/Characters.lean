import ExamVariants.Proofs.Xml.Reading

namespace ExamVariants.Xml

def isXmlChar (c : Char) : Bool :=
  c.toNat = 0x9 || c.toNat = 0xA || c.toNat = 0xD || (0x20 ≤ c.toNat && c.toNat ≤ 0xD7FF) ||
    (0xE000 ≤ c.toNat && c.toNat ≤ 0xFFFD) || (0x10000 ≤ c.toNat && c.toNat ≤ 0x10FFFF)

/-- A carriage return, with a new line behind it or without, is taken for a new line. -/
def normalizeLines : List Char → List Char
  | [] => []
  | '\r' :: '\n' :: cs => '\n' :: normalizeLines cs
  | c :: cs => (if c = '\r' then '\n' else c) :: normalizeLines cs

def lineEnds (s : String) : String := String.ofList (normalizeLines s.toList)

def read (s : String) : Option Element :=
  if s.toList.all isXmlChar then parseChars (normalizeLines s.toList) else none

/-- A property of all characters that tags and layout are made of. -/
structure OfMarkup (P : Char → Prop) : Prop where
  printable : ∀ c, isPrintable c = true → P c
  newLine : P '\n'

theorem toNat_of_isPrintable {c : Char} (h : isPrintable c = true) :
    0x20 ≤ c.toNat ∧ c.toNat ≤ 0x7E := by
  simp only [isPrintable, Bool.and_eq_true, decide_eq_true_eq] at h
  exact h

theorem ofMarkup_isXmlChar : OfMarkup fun c => isXmlChar c = true := by
  refine ⟨fun c hc => ?_, by decide⟩
  have hbounds := toNat_of_isPrintable hc
  simp [isXmlChar]
  omega

theorem ofMarkup_ne_return : OfMarkup (· ≠ '\r') := by
  refine ⟨?_, by decide⟩
  rintro c hc rfl
  exact absurd hc (by decide)

theorem isPrintable_of_isNameChar {c : Char} (h : isNameChar c = true) : isPrintable c = true := by
  have hbounds : 0x20 ≤ c.toNat ∧ c.toNat ≤ 0x7E := by
    unfold isNameChar Char.isAlphanum Char.isAlpha Char.isUpper Char.isLower Char.isDigit at h
    simp only [Bool.or_eq_true, Bool.and_eq_true, decide_eq_true_eq] at h
    rcases h with ((((((⟨hlow, hhigh⟩ | ⟨hlow, hhigh⟩) | ⟨hlow, hhigh⟩) | rfl) | rfl) | rfl) | rfl)
    · exact ⟨Nat.le_trans (by decide) hlow, Nat.le_trans hhigh (by decide)⟩
    · exact ⟨Nat.le_trans (by decide) hlow, Nat.le_trans hhigh (by decide)⟩
    · exact ⟨Nat.le_trans (by decide) hlow, Nat.le_trans hhigh (by decide)⟩
    · decide
    · decide
    · decide
    · decide
  simp only [isPrintable, Bool.and_eq_true, decide_eq_true_eq]
  exact hbounds

namespace OfMarkup

variable {P : Char → Prop}

theorem of_all (hP : OfMarkup P) {cs : List Char} (h : cs.all isPrintable = true) :
    ∀ c ∈ cs, P c :=
  fun c hc => hP.printable c (List.all_eq_true.mp h c hc)

theorem of_isName (hP : OfMarkup P) {name : String} (h : IsName name) : ∀ c ∈ name.toList, P c :=
  fun c hc => hP.printable c (isPrintable_of_isNameChar (h.isNameChar_of_mem hc))

theorem forall_flatMap_iff (hP : OfMarkup P) {f : Char → List Char}
    (hf : ∀ c, f c = [c] ∨ isPrintable c = true ∧ (f c).all isPrintable = true)
    {cs : List Char} : (∀ d ∈ cs.flatMap f, P d) ↔ ∀ c ∈ cs, P c := by
  have hchar (c : Char) : (∀ d ∈ f c, P d) ↔ P c := by
    rcases hf c with h | ⟨hc, h⟩
    · simp [h]
    · exact iff_of_true (hP.of_all h) (hP.printable c hc)
  simp only [List.mem_flatMap, forall_exists_index, and_imp]
  exact ⟨fun h c hc => (hchar c).mp fun d hd => h d c hc hd, fun h d c hc hd =>
    (hchar c).mpr (h c hc) d hd⟩

theorem forall_escaped_iff (hP : OfMarkup P) {cs : List Char} :
    (∀ c ∈ cs.flatMap escapeChar, P c) ↔ ∀ c ∈ cs, P c := by
  refine hP.forall_flatMap_iff fun c => ?_
  rcases escapeChar_eq_or c with ⟨rfl, -⟩ | ⟨rfl, -⟩ | ⟨rfl, -⟩ | ⟨rfl, -⟩ | ⟨rfl, -⟩ |
    ⟨-, -, -, -, -, h⟩
  · exact .inr (by decide)
  · exact .inr (by decide)
  · exact .inr (by decide)
  · exact .inr (by decide)
  · exact .inr (by decide)
  · exact .inl h

theorem of_attribute (hP : OfMarkup P) {name : String} {attributes : List (String × String)}
    (h : TagFits name attributes) {a : String × String} (ha : a ∈ attributes) :
    ∀ c ∈ (attributeText a).toList, P c := by
  have hvalue : ∀ c ∈ a.2.toList.flatMap escapeChar, P c :=
    hP.forall_escaped_iff.mpr (hP.of_all (h.values a ha))
  have hchars : (attributeText a).toList =
      [' '] ++ a.1.toList ++ ['=', '"'] ++ a.2.toList.flatMap escapeChar ++ ['"'] := by
    simp [attributeText, escape]
  rw [hchars]
  simp only [List.forall_mem_append]
  exact ⟨⟨⟨⟨hP.of_all (by decide), hP.of_isName (h.keys a ha)⟩, hP.of_all (by decide)⟩, hvalue⟩,
    hP.of_all (by decide)⟩

theorem of_startTag (hP : OfMarkup P) {name : String} {attributes : List (String × String)}
    (h : TagFits name attributes) : ∀ c ∈ Element.startTag name attributes, P c := by
  have hchars : Element.startTag name attributes = ['<'] ++ name.toList ++
      attributes.flatMap (fun a => (attributeText a).toList) ++ ['>'] := by
    simp [Element.startTag]
  rw [hchars]
  simp only [List.forall_mem_append]
  refine ⟨⟨⟨hP.of_all (by decide), hP.of_isName h.name⟩, fun c hc => ?_⟩, hP.of_all (by decide)⟩
  obtain ⟨a, ha, hc⟩ := List.mem_flatMap.mp hc
  exact hP.of_attribute h ha c hc

theorem of_stopTag (hP : OfMarkup P) {name : String} (h : IsName name) :
    ∀ c ∈ Element.stopTag name, P c := by
  have hchars : Element.stopTag name = ['<', '/'] ++ name.toList ++ ['>'] := by
    simp [Element.stopTag]
  rw [hchars]
  simp only [List.forall_mem_append]
  exact ⟨⟨hP.of_all (by decide), hP.of_isName h⟩, hP.of_all (by decide)⟩

theorem of_indent (hP : OfMarkup P) (depth : Nat) : ∀ c ∈ Element.indent depth, P c := by
  intro c hc
  rcases List.mem_cons.mp hc with rfl | hc
  · exact hP.newLine
  · obtain rfl := List.eq_of_mem_replicate hc
    exact hP.printable _ (by decide)

theorem forall_chars_iff (hP : OfMarkup P) {e : Element} (h : e.WellFormed) (depth : Nat) :
    (∀ c ∈ e.chars depth, P c) ↔ ∀ t ∈ e.texts, ∀ c ∈ t.toList, P c := by
  induction h generalizing depth with
  | leaf text htag =>
    simp only [Element.chars, Element.texts, List.forall_mem_append, hP.forall_escaped_iff,
      List.mem_singleton, forall_eq]
    exact ⟨fun hall => hall.2.2.1, fun htext =>
      ⟨hP.of_indent depth, hP.of_startTag htag, htext, hP.of_stopTag htag.name⟩⟩
  | node htag hne hchildren ih =>
    rename_i name attributes children
    have hall : (∀ c ∈ Element.charsOf (depth + 1) children, P c) ↔
        ∀ t ∈ Element.textsOf children, ∀ c ∈ t.toList, P c := by
      clear hne hchildren
      induction children with
      | nil => simp [Element.charsOf, Element.textsOf]
      | cons e es ihes =>
        rw [Element.charsOf, Element.textsOf, List.forall_mem_append, List.forall_mem_append,
          ih e List.mem_cons_self, ihes fun e' he' => ih e' (List.mem_cons_of_mem e he')]
    simp only [Element.chars, Element.texts, List.forall_mem_append, hall]
    exact ⟨fun hall => hall.2.2.1, fun htexts =>
      ⟨hP.of_indent depth, hP.of_startTag htag, htexts, hP.of_indent depth,
        hP.of_stopTag htag.name⟩⟩

theorem forall_document_iff (hP : OfMarkup P) {e : Element} (h : e.WellFormed) :
    (∀ c ∈ (document e.events).toList, P c) ↔ ∀ t ∈ e.texts, ∀ c ∈ t.toList, P c := by
  rw [Element.toList_document, List.forall_mem_append, hP.forall_chars_iff h]
  exact and_iff_right (hP.of_all (by decide))

end OfMarkup

theorem normalizeLines_cons {c : Char} (h : c ≠ '\r') (cs : List Char) :
    normalizeLines (c :: cs) = c :: normalizeLines cs := by
  rw [normalizeLines, if_neg h]
  rintro cs' rfl
  exact absurd rfl h

theorem normalizeLines_append {xs : List Char} (h : ∀ c ∈ xs, c ≠ '\r') (ys : List Char) :
    normalizeLines (xs ++ ys) = xs ++ normalizeLines ys := by
  induction xs with
  | nil => rfl
  | cons x xs ih =>
    rw [List.cons_append, normalizeLines_cons (h x List.mem_cons_self),
      ih fun c hc => h c (List.mem_cons_of_mem x hc), List.cons_append]

theorem normalizeLines_return {cs : List Char} (h : cs.head? ≠ some '\n') :
    normalizeLines ('\r' :: cs) = '\n' :: normalizeLines cs := by
  rw [normalizeLines, if_pos rfl]
  rintro cs' - rfl
  exact absurd rfl h

theorem escapeChar_return : escapeChar '\r' = ['\r'] := by decide

theorem escapeChar_newLine : escapeChar '\n' = ['\n'] := by decide

theorem head?_escaped {cs : List Char} (h : cs.head? ≠ some '\n') (rest : List Char) :
    (cs.flatMap escapeChar ++ '<' :: rest).head? ≠ some '\n' := by
  cases cs with
  | nil => simp
  | cons c cs =>
    have hc : c ≠ '\n' := fun heq => h (by rw [heq]; rfl)
    rcases escapeChar_eq_or c with ⟨-, he⟩ | ⟨-, he⟩ | ⟨-, he⟩ | ⟨-, he⟩ | ⟨-, he⟩ |
      ⟨-, -, -, -, -, he⟩ <;> simp [he, hc]

/-- A text in front of a tag is escaped and normalized in either order. -/
theorem normalizeLines_escaped (cs rest : List Char) :
    normalizeLines (cs.flatMap escapeChar ++ '<' :: rest) =
      (normalizeLines cs).flatMap escapeChar ++ normalizeLines ('<' :: rest) := by
  fun_induction normalizeLines cs with
  | case1 => rfl
  | case2 cs ih =>
    -- Neither character is escaped, so both are still side by side.
    simp only [List.flatMap_cons, escapeChar_return, escapeChar_newLine, List.cons_append,
      List.nil_append]
    exact congrArg ('\n' :: ·) ih
  | case3 c cs hnot ih =>
    by_cases hc : c = '\r'
    · subst hc
      -- No new line comes behind it, nor behind it once the rest is escaped.
      have hhead : cs.head? ≠ some '\n' := by
        intro hhead
        obtain ⟨cs', rfl⟩ := List.head?_eq_some_iff.mp hhead
        exact hnot cs' rfl rfl
      simp only [List.flatMap_cons, escapeChar_return, escapeChar_newLine, List.cons_append,
        List.nil_append, if_true]
      rw [normalizeLines_return (head?_escaped hhead rest), ih]
    · have hescaped : ∀ d ∈ [c].flatMap escapeChar, d ≠ '\r' :=
        ofMarkup_ne_return.forall_escaped_iff.mpr (by simpa using hc)
      rw [List.flatMap_singleton] at hescaped
      rw [if_neg hc, List.flatMap_cons, List.append_assoc, normalizeLines_append hescaped, ih,
        List.flatMap_cons, List.append_assoc]

theorem normalizeLines_startTag {name : String} {attributes : List (String × String)}
    (h : TagFits name attributes) (depth : Nat) (rest : List Char) :
    normalizeLines (Element.indent depth ++ (Element.startTag name attributes ++ rest)) =
      Element.indent depth ++ (Element.startTag name attributes ++ normalizeLines rest) := by
  rw [normalizeLines_append (ofMarkup_ne_return.of_indent depth),
    normalizeLines_append (ofMarkup_ne_return.of_startTag h)]

theorem normalizeLines_chars {e : Element} (h : e.WellFormed) (depth : Nat) (rest : List Char) :
    normalizeLines (e.chars depth ++ rest) =
      (e.mapTexts lineEnds).chars depth ++ normalizeLines rest := by
  induction h generalizing depth rest with
  | leaf text htag =>
    rename_i name attributes
    -- The stop tag begins with `<`, so no carriage return of the text meets a line feed in it.
    have htext : normalizeLines (text.toList.flatMap escapeChar ++ (Element.stopTag name ++ rest)) =
        (lineEnds text).toList.flatMap escapeChar ++
          (Element.stopTag name ++ normalizeLines rest) := by
      rw [← normalizeLines_append (ofMarkup_ne_return.of_stopTag htag.name), lineEnds,
        String.toList_ofList]
      exact normalizeLines_escaped text.toList _
    simp only [Element.chars, Element.mapTexts, List.append_assoc]
    rw [normalizeLines_startTag htag, htext]
  | node htag hne hchildren ih =>
    rename_i name attributes children
    have hall (rest : List Char) : normalizeLines (Element.charsOf (depth + 1) children ++ rest) =
        Element.charsOf (depth + 1) (Element.mapTextsOf lineEnds children) ++
          normalizeLines rest := by
      clear hne hchildren
      induction children with
      | nil => rfl
      | cons e es ihes =>
        rw [Element.charsOf, List.append_assoc, ih e List.mem_cons_self,
          ihes fun e' he' => ih e' (List.mem_cons_of_mem e he'), Element.mapTextsOf,
          Element.charsOf, List.append_assoc]
    simp only [Element.chars, Element.mapTexts, List.append_assoc]
    rw [normalizeLines_startTag htag, hall,
      normalizeLines_append (ofMarkup_ne_return.of_indent depth),
      normalizeLines_append (ofMarkup_ne_return.of_stopTag htag.name)]

theorem Element.WellFormed.mapTexts {e : Element} (h : e.WellFormed) (f : String → String) :
    (e.mapTexts f).WellFormed := by
  induction h with
  | leaf text htag => exact .leaf _ htag
  | node htag hne hchildren ih =>
    rw [Element.mapTexts, Element.mapTextsOf_eq_map]
    refine .node htag (by simpa using hne) fun e he => ?_
    obtain ⟨e', he', rfl⟩ := List.mem_map.mp he
    exact ih e' he'

/-- A processor reads an element with the line ends of its texts taken for new lines, provided that
the texts hold only characters that are allowed. -/
theorem read_document {e : Element} (h : e.WellFormed)
    (hlegal : ∀ t ∈ e.texts, ∀ c ∈ t.toList, isXmlChar c) :
    read (document e.events) = some (e.mapTexts lineEnds) := by
  have hall : (document e.events).toList.all isXmlChar = true :=
    List.all_eq_true.mpr ((ofMarkup_isXmlChar.forall_document_iff h).mpr hlegal)
  have hlines : normalizeLines (document e.events).toList =
      (document (e.mapTexts lineEnds).events).toList := by
    have hchars := normalizeLines_chars h 0 []
    rw [List.append_nil, normalizeLines, List.append_nil] at hchars
    rw [Element.toList_document, Element.toList_document, normalizeLines_append, hchars]
    exact ofMarkup_ne_return.of_all (by decide)
  rw [read, if_pos hall, hlines]
  exact parse_document (h.mapTexts lineEnds)

end ExamVariants.Xml
