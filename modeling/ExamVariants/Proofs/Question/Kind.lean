import ExamVariants.Proofs.Text.Blanks
import ExamVariants.Question.Basic

namespace ExamVariants

namespace Text

/-- The text is the name between blanks, where `f` says which character a character is read as. -/
def Spells (f : Char → Char) (name text : String) : Prop :=
  ∃ before letters after : List Char, text.toList = before ++ letters ++ after ∧
    (∀ c ∈ before ++ after, isBlank c = true) ∧ letters.map f = name.toList

theorem spells_iff {f : Char → Char} {name text : String}
    (hf : ∀ c, isBlank c = true → f c = c)
    (hname : name.toList.all (fun c => !isBlank c) = true) :
    Spells f name text ↔ (stripChars text.toList).map f = name.toList := by
  constructor
  · rintro ⟨before, letters, after, htext, hblank, hletters⟩
    have hclear : ∀ c ∈ letters, isBlank c = false := by
      intro c hc
      cases hcase : isBlank c with
      | false => rfl
      | true =>
        have hread := List.all_eq_true.mp hname (f c) (hletters ▸ List.mem_map_of_mem hc)
        rw [hf c hcase, hcase] at hread
        cases hread
    rw [htext, stripChars_append hblank (trimmed_of_forall hclear), hletters]
  · intro h
    obtain ⟨before, after, htext, hblank⟩ := exists_stripChars text.toList
    exact ⟨before, _, after, htext, hblank, h⟩

theorem find?_name_eq_some_iff {α : Type} {all : List α} {name : α → String}
    (hname : ∀ a, all.find? (name · == name a) = some a) {wanted : String} {a : α} :
    all.find? (name · == wanted) = some a ↔ wanted = name a := by
  constructor
  · intro h
    have hfound := List.find?_some h
    exact (beq_iff_eq.mp hfound).symm
  · rintro rfl
    exact hname a

end Text

namespace QuestionKind

/-- The character in lower case, and `-` for `_`. -/
def plain (c : Char) : Char :=
  if c.toLower = '_' then '-' else c.toLower

/-- Blanks around a tag, its letter case, and `_` in the place of `-` do not count. -/
def Names (kind : QuestionKind) (tag : String) : Prop :=
  ∃ before letters after : List Char, tag.toList = before ++ letters ++ after ∧
    (∀ c ∈ before ++ after, Text.isBlank c = true) ∧ letters.map plain = kind.name.toList

theorem plain_of_isBlank {c : Char} (h : Text.isBlank c = true) : plain c = c := by
  have hbounds := Text.toNat_of_isBlank h
  have hlower : c.toLower = c := by
    unfold Char.toLower
    apply dif_neg
    rintro ⟨hlow, hhigh⟩
    have hlow : 65 ≤ c.toNat := hlow
    have hhigh : c.toNat ≤ 90 := hhigh
    omega
  have hne : c ≠ '_' := by
    rintro rfl
    revert hbounds
    decide
  rw [plain, hlower, if_neg hne]

theorem names_iff {kind : QuestionKind} {tag : String} :
    kind.Names tag ↔ (Text.stripChars tag.toList).map plain = kind.name.toList := by
  apply Text.spells_iff fun c => plain_of_isBlank
  cases kind <;> decide

theorem ofName?_eq_some_iff {tag : String} {kind : QuestionKind} :
    ofName? tag = some kind ↔ kind.Names tag := by
  have hwanted : (Text.replaceChar '_' '-' (Text.lower (Text.strip tag))).toList =
      (Text.stripChars tag.toList).map plain := by
    simp [Text.replaceChar, Text.lower, Function.comp_def, plain]
  have hname : ∀ k, all.find? (name · == name k) = some k := by
    intro k
    cases k <;> rfl
  rw [names_iff, ofName?, Text.find?_name_eq_some_iff hname, ← String.toList_inj, hwanted]

example : ofName? " Open_Ended\t" = some .openEnded := rfl

end QuestionKind

end ExamVariants
