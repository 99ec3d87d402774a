import ExamVariants.Proofs.Moodle.Shown
import Mathlib.Data.Set.Function

namespace ExamVariants.Moodle

/-- All control characters below the blank but tab, new line and carriage return. -/
def IsControl (c : Char) : Prop :=
  c.toNat ≤ 0x08 ∨ c.toNat = 0x0B ∨ c.toNat = 0x0C ∨ 0x0E ≤ c.toNat ∧ c.toNat ≤ 0x1F

theorem isForbidden_iff {c : Char} : isForbidden c = true ↔ IsControl c := by
  have hle (d : Char) : c ≤ d ↔ c.toNat ≤ d.toNat := Iff.rfl
  have hge (d : Char) : d ≤ c ↔ d.toNat ≤ c.toNat := Iff.rfl
  have heq (d : Char) : c = d ↔ c.toNat = d.toNat := Char.toNat_inj.symm
  simp [isForbidden, IsControl, hle, hge, heq, or_assoc]

theorem IsControl.toNat_lt {c : Char} (h : IsControl c) : c.toNat < 0x20 := by
  unfold IsControl at h
  omega

def ofHexDigits (cs : List Char) : Nat :=
  cs.foldl (fun n c => 16 * n + if c.isDigit then c.toNat - '0'.toNat else c.toNat - 'A'.toNat + 10) 0

theorem ofHexDigits_hex4 : ∀ n < 0x20, ofHexDigits (RenderError.hex4 n).toList = n := by decide

theorem message_injOn :
    Set.InjOn (fun c => RenderError.message (.controlCharacter c)) {c | IsControl c} := by
  intro c hc d hd h
  simp only [RenderError.message, String.append_right_inj, String.append_left_inj] at h
  have hdigits : RenderError.hex4 c.toNat = RenderError.hex4 d.toNat := h
  apply Char.toNat_inj.mp
  rw [← ofHexDigits_hex4 _ hc.toNat_lt, hdigits, ofHexDigits_hex4 _ hd.toNat_lt]

/-- The character is a control character of the texts, and none stands before it. -/
def IsFirstControl (ts : List String) (c : Char) : Prop :=
  ∃ before after, ts.flatMap String.toList = before ++ c :: after ∧ IsControl c ∧
    ∀ d ∈ before, ¬IsControl d

theorem firstForbidden?_eq_some_iff {ts : List String} {c : Char} :
    firstForbidden? ts = some c ↔ IsFirstControl ts c := by
  rw [firstForbidden?, List.find?_eq_some_iff_append, IsFirstControl, isForbidden_iff]
  simp only [Bool.not_eq_true', Bool.eq_false_iff, Ne, isForbidden_iff]
  constructor
  · rintro ⟨hc, before, after, hchars, hbefore⟩
    exact ⟨before, after, hchars, hc, hbefore⟩
  · rintro ⟨before, after, hchars, hc, hbefore⟩
    exact ⟨hc, before, after, hchars, hbefore⟩

/-- Rendering fails iff a text that is shown holds a control character. The error is that of the
first one in the order of the document, which its message names, and no other error occurs. -/
theorem refused_at_first_control_character (solutions : Bool) (e : Exam) :
    ((∃ err, render solutions e = .error err) ↔
      ∃ t ∈ shownTexts solutions e, ∃ c ∈ t.toList, IsControl c) ∧
    (∀ err, render solutions e = .error err ↔
      ∃ c, IsFirstControl (shownTexts solutions e) c ∧ err = .controlCharacter c) ∧
    Set.InjOn (fun c => RenderError.message (.controlCharacter c)) {c | IsControl c} := by
  refine ⟨?_, fun err => ?_, message_injOn⟩
  · have hok : (∃ out, render solutions e = .ok out) ↔
        AllChars (fun c => isForbidden c = false) (shownTexts solutions e) := by
      simp only [render_eq_ok_iff_document, exists_and_left, exists_eq', and_true]
    simp only [exists_eq_error_iff, hok, AllChars, not_forall, exists_prop, Bool.not_eq_false,
      isForbidden_iff]
  · simp only [(bank_checks solutions e).eq_error_iff, firstForbidden?_eq_some_iff]

end ExamVariants.Moodle
