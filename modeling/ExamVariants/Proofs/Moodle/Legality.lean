import ExamVariants.Proofs.Moodle.Shown

namespace ExamVariants.Moodle

open Xml

/-- What XML 1.0 does not allow, yet passes the check. -/
def isMissed (c : Char) : Bool := c = '\uFFFE' || c = '\uFFFF'

theorem isXmlChar_iff (c : Char) :
    isXmlChar c = true ↔ isForbidden c = false ∧ isMissed c = false := by
  have hle (d : Char) : c ≤ d ↔ c.toNat ≤ d.toNat := Iff.rfl
  have hge (d : Char) : d ≤ c ↔ d.toNat ≤ c.toNat := Iff.rfl
  have heq (d : Char) : c = d ↔ c.toNat = d.toNat := Char.toNat_inj.symm
  have hvalid : c.toNat < 0xD800 ∨ 0xDFFF < c.toNat ∧ c.toNat < 0x110000 := c.valid
  simp [isXmlChar, isForbidden, isMissed, hle, hge, heq]
  omega

theorem allChars_isXmlChar_iff {ts : List String} :
    AllChars (fun c => isXmlChar c = true) ts ↔
      AllChars (fun c => isForbidden c = false) ts ∧ AllChars (fun c => isMissed c = false) ts := by
  simp only [AllChars, isXmlChar_iff]
  exact ⟨fun h => ⟨fun t ht c hc => (h t ht c hc).1, fun t ht c hc => (h t ht c hc).2⟩,
    fun h t ht c hc => ⟨h.1 t ht c hc, h.2 t ht c hc⟩⟩

/-- The output holds the characters of the texts that it shows, apart from those of markup. -/
theorem forall_output_iff {P : Char → Prop} (hP : OfMarkup P) {solutions : Bool} {e : Exam}
    {out : String} (h : render solutions e = .ok out) :
    (∀ c ∈ out.toList, P c) ↔ AllChars P (shownTexts solutions e) := by
  obtain ⟨-, rfl⟩ := render_eq_ok_iff_document.mp h
  exact (hP.forall_document_iff (quiz_wellFormed solutions e)).trans
    (quiz_sameChars solutions e P hP)

/-- All output has characters that XML 1.0 allows, and a text with any other character makes
rendering fail. -/
structure LegalOutput (solutions : Bool) (e : Exam) : Prop where
  legal : ∀ out, render solutions e = .ok out → ∀ c ∈ out.toList, isXmlChar c = true
  refused : ¬ AllChars (fun c => isXmlChar c = true) (shownTexts solutions e) →
    ∃ c, render solutions e = .error (.controlCharacter c)

theorem legalOutput_of_error {solutions : Bool} {e : Exam} {c : Char}
    (h : render solutions e = .error (.controlCharacter c)) : LegalOutput solutions e where
  legal out hout := by
    rw [h] at hout
    cases hout
  refused _ := ⟨c, h⟩

theorem legalOutput_iff_of_ok {solutions : Bool} {e : Exam} {out : String}
    (h : render solutions e = .ok out) :
    LegalOutput solutions e ↔ AllChars (fun c => isXmlChar c = true) (shownTexts solutions e) := by
  rw [← forall_output_iff ofMarkup_isXmlChar h]
  constructor
  · intro hlegal
    exact hlegal.legal out h
  · intro hall
    refine ⟨fun out' hout' => ?_, fun hnot => ?_⟩
    · obtain rfl := Except.ok.inj (h.symm.trans hout')
      exact hall
    · exact absurd ((forall_output_iff ofMarkup_isXmlChar h).mp hall) hnot

/-- The output is legal as soon as rendering fails or no text holds what the check misses. Rendering
fails iff a text that is shown holds a forbidden character, and names one. -/
theorem legalOutput_iff (solutions : Bool) (e : Exam) :
    (LegalOutput solutions e ↔
      ¬ AllChars (fun c => isForbidden c = false) (shownTexts solutions e) ∨
        AllChars (fun c => isMissed c = false) (shownTexts solutions e)) ∧
    ((∃ out, render solutions e = .ok out) ↔
      AllChars (fun c => isForbidden c = false) (shownTexts solutions e)) ∧
    ∀ err, render solutions e = .error err →
      ∃ t ∈ shownTexts solutions e, ∃ c ∈ t.toList,
        isForbidden c = true ∧ err = .controlCharacter c := by
  have hwrites := bank_writes solutions e
  refine ⟨?_, ?_, fun err herr => hwrites.exists_of_eq_error herr⟩
  · cases hrender : render solutions e with
    | error err =>
      obtain ⟨t, ht, c, hc, hforbidden, rfl⟩ := hwrites.exists_of_eq_error hrender
      refine iff_of_true (legalOutput_of_error hrender) (.inl fun hall => ?_)
      rw [hall t ht c hc] at hforbidden
      cases hforbidden
    | ok out =>
      -- The check found nothing, so what it misses is all that can be illegal.
      have hclean := (hwrites.eq_ok_iff.mp hrender).1
      rw [legalOutput_iff_of_ok hrender, allChars_isXmlChar_iff, and_iff_right hclean,
        or_iff_right (not_not_intro hclean)]
  · simp only [hwrites.eq_ok_iff, exists_and_left, exists_eq', and_true]

/-- A bank with a character that XML 1.0 does not allow, and that is no control character. -/
def missedBank : Exam where
  parameters := Parameters.empty
  questions := [.trueFalse (.plain "a\uFFFEb") true 1]

/-- The output holds the character, and no processor reads it. -/
theorem missed_character_in_output :
    ∃ out, render false missedBank = .ok out ∧ '\uFFFE' ∈ out.toList ∧
      isXmlChar '\uFFFE' = false ∧ Xml.read out = none := by
  have hrender := render_eq_ok_iff_document.mpr
    ⟨(by decide : AllChars _ (shownTexts false missedBank)), rfl⟩
  have hmarkup : OfMarkup (· ≠ '\uFFFE') := ⟨by
    rintro c hc rfl
    exact absurd hc (by decide), by decide⟩
  have hmem : '\uFFFE' ∈ (document (quiz false missedBank).events).toList := by
    by_contra hnot
    have hall := (forall_output_iff hmarkup hrender).mp fun c hc heq => hnot (heq ▸ hc)
    exact absurd hall (by decide)
  refine ⟨_, hrender, hmem, by decide, if_neg fun hall => ?_⟩
  exact absurd (List.all_eq_true.mp hall _ hmem) (by decide)

end ExamVariants.Moodle
