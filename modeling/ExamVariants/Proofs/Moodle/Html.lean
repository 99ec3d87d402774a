import ExamVariants.Moodle.Styles
import ExamVariants.Proofs.Outcome
import ExamVariants.Proofs.Style.Leaves
import ExamVariants.Proofs.Xml.Characters

namespace ExamVariants.Moodle

open Xml (OfMarkup isPrintable)

def AllChars (P : Char → Prop) (ts : List String) : Prop := ∀ t ∈ ts, ∀ c ∈ t.toList, P c

instance (P : Char → Prop) [DecidablePred P] (ts : List String) : Decidable (AllChars P ts) :=
  decidable_of_iff ((ts.all fun t => t.toList.all fun c => decide (P c)) = true) (by simp [AllChars])

/-- The two have the same characters, apart from those that markup is made of. -/
def SameChars (ts ts' : List String) : Prop :=
  ∀ P, OfMarkup P → (AllChars P ts ↔ AllChars P ts')

/-- The characters of the texts that markup is not made of, in order. -/
def strays (ts : List String) : List Char :=
  (ts.flatMap String.toList).filter fun c => !isPrintable c

theorem strays_append (ts ts' : List String) : strays (ts ++ ts') = strays ts ++ strays ts' := by
  simp [strays]

theorem mem_strays_iff {ts : List String} {c : Char} :
    c ∈ strays ts ↔ (∃ t ∈ ts, c ∈ t.toList) ∧ isPrintable c = false := by
  simp [strays]

/-- The two have the same characters in the same order, apart from those that markup is made of. -/
def SameStrays (ts ts' : List String) : Prop := strays ts = strays ts'

namespace SameStrays

variable {ts ts' us us' : List String}

theorem refl (ts : List String) : SameStrays ts ts := rfl

theorem trans (h : SameStrays ts ts') (h' : SameStrays ts' us) : SameStrays ts us := Eq.trans h h'

theorem append (h : SameStrays ts ts') (h' : SameStrays us us') :
    SameStrays (ts ++ us) (ts' ++ us') := by
  rw [SameStrays] at h h' ⊢
  rw [strays_append, strays_append, h, h']

theorem of_all (h : ∀ t ∈ ts, t.toList.all isPrintable = true) : SameStrays ts [] := by
  refine List.eq_nil_iff_forall_not_mem.mpr fun c hc => ?_
  obtain ⟨⟨t, ht, hmem⟩, hstray⟩ := mem_strays_iff.mp hc
  rw [List.all_eq_true.mp (h t ht) c hmem] at hstray
  cases hstray

theorem of_markup {t : String} (h : t.toList.all isPrintable = true) : SameStrays [t] [] :=
  of_all (by simpa using h)

theorem join (ts : List String) : SameStrays [String.join ts] ts := by
  rw [SameStrays, strays, strays, List.flatMap_singleton, String.toList_join]

theorem pair (t u : String) : SameStrays [t ++ u] [t, u] := by simp [SameStrays, strays]

theorem behind {left : String} (h : left.toList.all isPrintable = true) (t : String) :
    SameStrays [left ++ t] [t] :=
  (pair left t).trans ((of_markup h).append (refl [t]))

theorem before {right : String} (h : right.toList.all isPrintable = true) (t : String) :
    SameStrays [t ++ right] [t] :=
  (pair t right).trans ((refl [t]).append (of_markup h))

theorem between {left right : String} (hleft : left.toList.all isPrintable = true)
    (hright : right.toList.all isPrintable = true) (t : String) :
    SameStrays [left ++ t ++ right] [t] :=
  (before hright (left ++ t)).trans (behind hleft t)

theorem ofList_flatMap {f : Char → List Char}
    (hf : ∀ c, f c = [c] ∨ isPrintable c = true ∧ (f c).all isPrintable = true) (s : String) :
    SameStrays [String.ofList (s.toList.flatMap f)] [s] := by
  have hchar (c : Char) :
      (f c).filter (fun d => !isPrintable d) = [c].filter fun d => !isPrintable d := by
    rcases hf c with h | ⟨hc, h⟩
    · rw [h]
    · rw [List.filter_singleton, hc, List.filter_eq_nil_iff.mpr]
      · rfl
      · intro d hd
        simp [List.all_eq_true.mp h d hd]
  simp only [SameStrays, strays, List.flatMap_singleton, String.toList_ofList]
  rw [List.filter_flatMap, List.flatMap_congr fun c _ => hchar c, ← List.filter_flatMap,
    List.flatMap_singleton']

theorem flatMap {α : Type} {f g : α → List String} {xs : List α}
    (h : ∀ x ∈ xs, SameStrays (f x) (g x)) : SameStrays (xs.flatMap f) (xs.flatMap g) := by
  induction xs with
  | nil => exact refl _
  | cons x xs ih =>
    exact (h x List.mem_cons_self).append (ih fun y hy => h y (List.mem_cons_of_mem x hy))

theorem map {α : Type} {f g : α → String} {xs : List α} (h : ∀ x ∈ xs, SameStrays [f x] [g x]) :
    SameStrays (xs.map f) (xs.map g) := by
  rw [List.map_eq_flatMap, List.map_eq_flatMap]
  exact flatMap h

theorem sameChars (h : SameStrays ts ts') : SameChars ts ts' := by
  intro P hP
  have hstrays (ts : List String) : AllChars P ts ↔ ∀ c ∈ strays ts, P c := by
    constructor
    · intro hall c hc
      obtain ⟨⟨t, ht, hmem⟩, -⟩ := mem_strays_iff.mp hc
      exact hall t ht c hmem
    · intro hall t ht c hmem
      cases hc : isPrintable c with
      | true => exact hP.printable c hc
      | false => exact hall c (mem_strays_iff.mpr ⟨⟨t, ht, hmem⟩, hc⟩)
  rw [hstrays, hstrays, h]

end SameStrays

theorem ofMarkup_not_isForbidden : OfMarkup fun c => isForbidden c = false := by
  refine ⟨fun c hc => ?_, by decide⟩
  have hbounds := Xml.toNat_of_isPrintable hc
  have hle (d : Char) (hd : d.toNat < 0x20) : ¬ c ≤ d := by
    intro h
    have hnat : c.toNat ≤ d.toNat := h
    omega
  have hne (d : Char) (hd : d.toNat < 0x20) : c ≠ d := by
    rintro rfl
    omega
  simp [isForbidden, hle, hne]

def firstForbidden? (ts : List String) : Option Char :=
  (ts.flatMap String.toList).find? isForbidden

theorem firstForbidden?_append (ts ts' : List String) :
    firstForbidden? (ts ++ ts') = (firstForbidden? ts).or (firstForbidden? ts') := by
  rw [firstForbidden?, List.flatMap_append, List.find?_append, firstForbidden?, firstForbidden?]

theorem firstForbidden?_eq_none_iff {ts : List String} :
    firstForbidden? ts = none ↔ AllChars (fun c => isForbidden c = false) ts := by
  rw [firstForbidden?, List.find?_eq_none]
  simp only [List.mem_flatMap, forall_exists_index, and_imp, Bool.not_eq_true]
  exact ⟨fun h t ht c hc => h c t ht hc, fun h c t ht hc => h t ht c hc⟩

theorem SameStrays.firstForbidden?_eq {ts ts' : List String} (h : SameStrays ts ts') :
    firstForbidden? ts = firstForbidden? ts' := by
  have hstrays (ts : List String) : firstForbidden? ts = (strays ts).find? isForbidden := by
    rw [firstForbidden?, strays, List.find?_filter]
    congr 1
    funext c
    cases hc : isPrintable c with
    | true => simp [ofMarkup_not_isForbidden.printable c hc]
    | false => simp
  rw [hstrays, hstrays, h]

theorem firstForbidden?_append_self {ts ts' : List String} (h : SameStrays ts' ts)
    (rest : List String) : firstForbidden? (ts ++ (ts' ++ rest)) = firstForbidden? (ts' ++ rest) := by
  rw [firstForbidden?_append ts, firstForbidden?_append ts', h.firstForbidden?_eq,
    ← Option.or_assoc, Option.or_self]

/-- The chain checks the texts: it gives the value if they hold no forbidden character, and otherwise
fails at the first one. -/
inductive Checks {α : Type} (ts : List String) (value : α) : Except RenderError α → Prop
  | ok (h : firstForbidden? ts = none) : Checks ts value (.ok value)
  | error {c : Char} (h : firstForbidden? ts = some c) :
    Checks ts value (.error (.controlCharacter c))

namespace Checks

variable {α β : Type} {ts ts' : List String} {a : α} {b : β}

theorem pure (a : α) : Checks [] a (Pure.pure a) := .ok rfl

theorem bind {x : Except RenderError α} {f : α → Except RenderError β} (hx : Checks ts a x)
    (hf : Checks ts' b (f a)) : Checks (ts ++ ts') b (x >>= f) := by
  cases hx with
  | ok h =>
    change Checks (ts ++ ts') b (f a)
    generalize f a = y at hf ⊢
    cases hf with
    | ok h' => exact .ok (by rw [firstForbidden?_append, h, h', Option.none_or])
    | error h' => exact .error (by rw [firstForbidden?_append, h, h', Option.none_or])
  | error h => exact .error (by rw [firstForbidden?_append, h, Option.some_or])

theorem map {x : Except RenderError α} {f : α → β} (hx : Checks ts a x) (hb : f a = b) :
    Checks ts b (x >>= fun v => Pure.pure (f v)) := by
  have h : Checks (ts ++ []) (f a) (x >>= fun v => Pure.pure (f v)) := hx.bind (pure (f a))
  rwa [List.append_nil, hb] at h

theorem congr {x : Except RenderError α} {a' : α} (hx : Checks ts a x) (hts : ts = ts')
    (ha : a = a') : Checks ts' a' x := hts ▸ ha ▸ hx

theorem of_first {x : Except RenderError α} (hx : Checks ts a x)
    (h : firstForbidden? ts = firstForbidden? ts') : Checks ts' a x := by
  cases hx with
  | ok hnone => exact .ok (h.symm.trans hnone)
  | error hsome => exact .error (h.symm.trans hsome)

theorem eq_error_iff {x : Except RenderError α} (hx : Checks ts a x) {err : RenderError} :
    x = .error err ↔ ∃ c, firstForbidden? ts = some c ∧ err = .controlCharacter c := by
  cases hx with
  | ok hnone => simp [hnone]
  | error hsome => simp [hsome, eq_comm]

end Checks

/-- The chain gives the value if the texts hold no forbidden character, and otherwise fails at one
that they hold. -/
inductive Writes {α : Type} (ts : List String) (value : α) : Except RenderError α → Prop
  | ok (h : AllChars (fun c => isForbidden c = false) ts) : Writes ts value (.ok value)
  | error {t : String} {c : Char} (ht : t ∈ ts) (hc : c ∈ t.toList) (hforbidden : isForbidden c) :
    Writes ts value (.error (.controlCharacter c))

namespace Writes

variable {α : Type} {ts : List String} {a : α} {x : Except RenderError α}

theorem of_checks (hx : Checks ts a x) : Writes ts a x := by
  cases hx with
  | ok hnone => exact .ok (firstForbidden?_eq_none_iff.mp hnone)
  | error hsome =>
    obtain ⟨t, ht, hc⟩ := List.mem_flatMap.mp (List.mem_of_find?_eq_some hsome)
    exact .error ht hc (List.find?_some hsome)

theorem eq_ok_iff (h : Writes ts a x) {v : α} :
    x = .ok v ↔ AllChars (fun c => isForbidden c = false) ts ∧ a = v := by
  cases h with
  | ok hall => simp [hall]
  | error ht hc hforbidden =>
    refine iff_of_false (by simp) fun hall => ?_
    exact absurd hforbidden (by simp [hall.1 _ ht _ hc])

theorem exists_of_eq_error (h : Writes ts a x) {err : RenderError} (herr : x = .error err) :
    ∃ t ∈ ts, ∃ c ∈ t.toList, isForbidden c = true ∧ err = .controlCharacter c := by
  cases h with
  | ok hall => cases herr
  | error ht hc hforbidden =>
    obtain rfl := Except.error.inj herr
    exact ⟨_, ht, _, hc, hforbidden, rfl⟩

end Writes

theorem checkText_checks (s : String) : Checks [s] () (checkText s) := by
  rw [checkText]
  cases hfind : s.toList.find? isForbidden with
  | none => exact .ok (by simpa [firstForbidden?] using hfind)
  | some c => exact .error (by simpa [firstForbidden?] using hfind)

def leafHtml (l : Leaf) : String :=
  let escaped := if StyleTable.leading l.styles = .custom then l.text else escapeHtml l.text
  let wrapped := l.styles.foldl (fun inner style => wrap style inner) escaped
  if l.styles.contains .newLine then "<br/>" ++ wrapped else wrapped

def htmlText (s : Segment) : String := String.join (s.leaves.map leafHtml)

def leafTexts (s : Segment) : List String := s.leaves.map Leaf.text

theorem escape_checks (style : Style) (s : String) :
    Checks [s] (if style = .custom then s else escapeHtml s) (escape style s) := by
  cases style <;> exact (checkText_checks s).map rfl

theorem foldlM_wrap (ss : List Style) (inner : String) :
    ss.foldlM (fun inner style => styles.wrap style inner) inner =
      .ok (ss.foldl (fun inner style => wrap style inner) inner) := by
  induction ss generalizing inner with
  | nil => rfl
  | cons style ss ih => exact ih (wrap style inner)

theorem renderLeaf_checks (l : Leaf) : Checks [l.text] (leafHtml l) (styles.renderLeaf l) := by
  have hwrap (escaped : String) : Checks []
      (if l.styles.contains .newLine then
        "<br/>" ++ l.styles.foldl (fun inner style => wrap style inner) escaped
      else l.styles.foldl (fun inner style => wrap style inner) escaped)
      (do
        let wrapped ← l.styles.foldlM (fun inner style => styles.wrap style inner) escaped
        return if l.styles.contains .newLine then styles.lineBreak ++ wrapped else wrapped) := by
    rw [foldlM_wrap]
    exact .pure _
  exact (escape_checks (StyleTable.leading l.styles) l.text).bind (hwrap _)

theorem render_checks (s : Segment) : Checks (leafTexts s) (htmlText s) (styles.render s) := by
  rw [StyleTable.render_eq_renderLeaves, leafTexts, htmlText]
  induction s.leaves with
  | nil => exact .pure _
  | cons l ls ih =>
    rw [StyleTable.renderLeaves, List.map_cons, List.map_cons, String.join_cons]
    exact (renderLeaf_checks l).bind (ih.map rfl)

theorem render_writes (s : Segment) : Writes (leafTexts s) (htmlText s) (styles.render s) :=
  .of_checks (render_checks s)

theorem escapeHtml_sameStrays (s : String) : SameStrays [escapeHtml s] [s] := by
  rw [escapeHtml]
  refine .ofList_flatMap (fun c => ?_) s
  fun_cases escapeChar c
  · exact .inr (by decide)
  · exact .inr (by decide)
  · exact .inr (by decide)
  · exact .inr (by decide)
  · exact .inl rfl

theorem wrap_sameStrays (style : Style) (inner : String) :
    SameStrays [wrap style inner] [inner] := by
  cases style with
  | bold => exact .between (by decide) (by decide) inner
  | italic => exact .between (by decide) (by decide) inner
  | code => exact .between (by decide) (by decide) inner
  | inlineCode => exact .between (by decide) (by decide) inner
  | custom => exact .refl _
  | inherit => exact .refl _
  | newLine => exact .refl _

theorem leafHtml_sameStrays (l : Leaf) : SameStrays [leafHtml l] [l.text] := by
  have hescaped : SameStrays
      [if StyleTable.leading l.styles = .custom then l.text else escapeHtml l.text] [l.text] := by
    split
    · exact .refl _
    · exact escapeHtml_sameStrays l.text
  have hwrapped (ss : List Style) (inner : String) (h : SameStrays [inner] [l.text]) :
      SameStrays [ss.foldl (fun inner style => wrap style inner) inner] [l.text] := by
    induction ss generalizing inner with
    | nil => exact h
    | cons style ss ih => exact ih (wrap style inner) ((wrap_sameStrays style inner).trans h)
  rw [leafHtml]
  split
  · exact (SameStrays.behind (by decide) _).trans (hwrapped l.styles _ hescaped)
  · exact hwrapped l.styles _ hescaped

theorem htmlText_sameStrays (s : Segment) : SameStrays [htmlText s] (leafTexts s) :=
  (SameStrays.join _).trans (.map fun l _ => leafHtml_sameStrays l)

end ExamVariants.Moodle
