import ExamVariants.Proofs.Moodle.Shown

namespace ExamVariants.Moodle

open Xml

theorem parse_of_render {solutions : Bool} {e : Exam} {out : String}
    (h : render solutions e = .ok out) : Xml.parse out = some (quiz solutions e) := by
  obtain ⟨-, rfl⟩ := render_eq_ok_iff_document.mp h
  exact parse_document (quiz_wellFormed solutions e)

theorem read_of_render {solutions : Bool} {e : Exam} {out : String}
    (h : render solutions e = .ok out)
    (hlegal : AllChars (fun c => isXmlChar c = true) (shownTexts solutions e)) :
    Xml.read out = some ((quiz solutions e).mapTexts lineEnds) := by
  obtain ⟨-, rfl⟩ := render_eq_ok_iff_document.mp h
  exact read_document (quiz_wellFormed solutions e)
    ((quiz_sameChars solutions e _ ofMarkup_isXmlChar).mpr hlegal)

/-- The bank is written from the events of its quiz and reads back as its quiz; a processor of XML
1.0 also takes line ends for new lines, and needs characters that are allowed. Another examination
of the same outline reads back as the same elements with the same attributes. -/
theorem bank_contains_texts {solutions : Bool} {e : Exam} {out : String}
    (h : render solutions e = .ok out) :
    events solutions e = .ok (quiz solutions e).events ∧
      Xml.parse out = some (quiz solutions e) ∧
      (AllChars (fun c => isXmlChar c = true) (shownTexts solutions e) →
        Xml.read out = some ((quiz solutions e).mapTexts lineEnds)) ∧
      ∀ e' out', SameOutline e e' → render solutions e' = .ok out' →
        (Xml.parse out').map shape = (Xml.parse out).map shape := by
  refine ⟨?_, parse_of_render h, read_of_render h, fun e' out' hsame h' => ?_⟩
  · have hclean := (quiz_sameChars solutions e _ ofMarkup_not_isForbidden).mpr
      (render_eq_ok_iff_document.mp h).1
    exact (events_writes solutions e).eq_ok_iff.mpr ⟨hclean, rfl⟩
  · rw [parse_of_render h, parse_of_render h', Option.map_some, Option.map_some,
      quiz_shape solutions hsame]

def markedBank : Exam where
  parameters := Parameters.empty.bind .title (.text "]]></category><quiz>")
  questions :=
    [.closedEnded (.simple "</text></questiontext>" [.custom]) 1
      [⟨true, .plain "\" fraction=\"100"⟩, ⟨false, .plain "&lt;<!--"⟩]]

theorem bank_contains_texts_markedBank :
    ∃ out, render true markedBank = .ok out ∧
      events true markedBank = .ok (quiz true markedBank).events ∧
      Xml.parse out = some (quiz true markedBank) ∧
      Xml.read out = some ((quiz true markedBank).mapTexts lineEnds) ∧
      ∀ e' out', SameOutline markedBank e' → render true e' = .ok out' →
        (Xml.parse out').map shape = (Xml.parse out).map shape := by
  have hlegal : AllChars (fun c => isXmlChar c = true) (shownTexts true markedBank) := by decide
  have hrender := render_eq_ok_iff_document.mpr
    ⟨(by decide : AllChars _ (shownTexts true markedBank)), rfl⟩
  obtain ⟨hevents, hparse, hread, hshape⟩ := bank_contains_texts hrender
  exact ⟨_, hrender, hevents, hparse, hread hlegal, hshape⟩

def returnBank : Exam where
  parameters := Parameters.empty
  questions := [.trueFalse (.plain "a\rb") true 1]

/-- The document holds the carriage return, yet a new line is read. -/
theorem return_reads_as_newLine :
    ∃ out q, events false returnBank = .ok (quiz false returnBank).events ∧
      render false returnBank = .ok out ∧ Xml.read out = some q ∧
      (quiz false returnBank).texts = ["$course$", "Q1", "a\rb", "1", "true", "false"] ∧
      q.texts = ["$course$", "Q1", "a\nb", "1", "true", "false"] := by
  have hlegal : AllChars (fun c => isXmlChar c = true) (shownTexts false returnBank) := by decide
  have hevents := (events_writes false returnBank).eq_ok_iff.mpr ⟨by decide, rfl⟩
  have hrender := render_eq_ok_iff_document.mpr
    ⟨(by decide : AllChars _ (shownTexts false returnBank)), rfl⟩
  exact ⟨_, _, hevents, hrender, read_of_render hrender hlegal, by decide, by decide⟩

end ExamVariants.Moodle
