import ExamVariants.Proofs.Style.Leaves
import ExamVariants.Proofs.Text.Blanks

namespace ExamVariants.Segment

open Text

def joinTrimmed (ls : List Leaf) : String := String.join (ls.map fun l => strip l.text)

theorem joinTrimmed_append (ls ls' : List Leaf) :
    joinTrimmed (ls ++ ls') = joinTrimmed ls ++ joinTrimmed ls' := by
  rw [joinTrimmed, List.map_append, String.join_append]
  rfl

theorem trimmed_joinTrimmed (ls : List Leaf) : Trimmed (joinTrimmed ls).toList := by
  induction ls with
  | nil => exact trimmed_nil
  | cons l ls ih =>
    rw [joinTrimmed, List.map_cons, String.join_cons, String.toList_append, toList_strip]
    exact (trimmed_stripChars l.text.toList).append ih

theorem strip_joinTrimmed (ls : List Leaf) : strip (joinTrimmed ls) = joinTrimmed ls := by
  rw [strip, (trimmed_joinTrimmed ls).stripChars_eq, String.ofList_toList]

theorem joinedText_eq {parts : List Segment}
    (h : ∀ p ∈ parts, strip p.text = joinTrimmed p.leaves) :
    joinedText parts = joinTrimmed (leavesOf parts) := by
  induction parts with
  | nil => rfl
  | cons p ps ih =>
    rw [joinedText, leavesOf, joinTrimmed_append, h p List.mem_cons_self,
      ih fun q hq => h q (List.mem_cons_of_mem p hq)]

theorem strip_text (s : Segment) : strip s.text = joinTrimmed s.leaves := by
  induction s with
  | simple text styles =>
    rw [Segment.text, leaves, joinTrimmed, List.map_singleton, String.join_cons, String.join_nil,
      String.append_empty]
  | compound parts ih => rw [Segment.text, leaves, joinedText_eq ih, strip_joinTrimmed]

theorem text_compound (parts : List Segment) :
    (compound parts).text = joinTrimmed (compound parts).leaves :=
  joinedText_eq fun p _ => strip_text p

/-- The bare text of a compound is made of the trimmed texts of its leaves, in order. So it does not
depend on how the leaves are grouped, and neither of its ends is blank. -/
theorem compound_text_ignores_grouping (parts : List Segment) :
    (compound parts).text =
        String.join ((compound parts).leaves.map fun l => strip l.text) ∧
      (∀ parts', (compound parts').leaves = (compound parts).leaves →
        (compound parts').text = (compound parts).text) ∧
      Trimmed (compound parts).text.toList := by
  refine ⟨text_compound parts, ?_, ?_⟩
  · intro parts' hleaves
    rw [text_compound, text_compound, hleaves]
  · rw [text_compound]
    exact trimmed_joinTrimmed _

/-- Blank leaves at the ends of inner compounds, and one that holds nothing. -/
theorem compound_text_ignores_grouping_blankLeaves :
    let nested : List Segment := [.plain "  Is ", .compound [.simple "\u00a0\n" [.bold],
      .compound [.plain " this\t", .compound []], .plain ""], .plain " valid? "]
    let flat : List Segment := [.compound [.plain "  Is ", .simple "\u00a0\n" [.bold]],
      .plain " this\t", .compound [.plain "", .plain " valid? "]]
    (compound flat).leaves = (compound nested).leaves ∧
      (compound flat).text = (compound nested).text ∧
      (compound nested).text = "Isthisvalid?" := by
  intro nested flat
  have hleaves : (compound flat).leaves = (compound nested).leaves := rfl
  obtain ⟨-, hregroup, -⟩ := compound_text_ignores_grouping nested
  exact ⟨hleaves, hregroup flat hleaves, rfl⟩

end ExamVariants.Segment
