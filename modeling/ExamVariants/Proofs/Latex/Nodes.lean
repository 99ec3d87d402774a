import ExamVariants.Latex.Question
import ExamVariants.Proofs.Outcome
import ExamVariants.Proofs.Question.Tree

namespace ExamVariants.Latex

def IsPiece (inner outer : String) : Prop := ∃ before after, outer = before ++ inner ++ after

theorem IsPiece.refl (s : String) : IsPiece s s := ⟨"", "", by simp⟩

theorem IsPiece.trans {s t u : String} (hst : IsPiece s t) (htu : IsPiece t u) : IsPiece s u := by
  obtain ⟨before, after, rfl⟩ := hst
  obtain ⟨before', after', rfl⟩ := htu
  exact ⟨before' ++ before, after ++ after', by simp only [String.append_assoc]⟩

theorem IsPiece.append_left {s t : String} (h : IsPiece s t) (u : String) : IsPiece s (u ++ t) :=
  h.trans ⟨u, "", String.append_empty.symm⟩

theorem IsPiece.append_right {s t : String} (h : IsPiece s t) (u : String) : IsPiece s (t ++ u) :=
  h.trans ⟨"", u, by rw [String.empty_append]⟩

namespace Mode

variable {m : Mode} {path : QuestionPath} {depth : Nat}

theorem exists_body_of_children {command : String} {index : Nat} {qs : List Question}
    {output : String} (h : m.children path depth command index qs = .ok output) {q : Question}
    (hq : q ∈ qs) :
    ∃ path' inner, m.body path' (depth + 1) q = .ok inner ∧ IsPiece inner output := by
  induction qs generalizing index output with
  | nil => cases hq
  | cons q' qs ih =>
    rw [children] at h
    obtain ⟨first, hfirst, h⟩ := bind_eq_ok_iff.mp h
    obtain ⟨rest, hrest, h⟩ := bind_eq_ok_iff.mp h
    obtain rfl := pure_eq_ok_iff.mp h
    rcases List.mem_cons.mp hq with rfl | hq
    · exact ⟨_, first, hfirst, ((IsPiece.refl first).append_left _).append_right rest⟩
    · obtain ⟨path', inner, hinner, hpiece⟩ := ih hrest hq
      exact ⟨path', inner, hinner, hpiece.append_left _⟩

theorem exists_children_of_body {statement : Segment} {points : Nat} {qs : List Question}
    {output : String} (h : m.body path depth (.compound statement points qs) = .ok output) :
    ∃ command parts, m.children path depth command 0 qs = .ok parts ∧ IsPiece parts output := by
  rw [body] at h
  cases hlevel : level? depth with
  | none =>
    rw [hlevel] at h
    cases h
  | some level =>
    rw [hlevel] at h
    obtain ⟨header, -, h⟩ := bind_eq_ok_iff.mp h
    obtain ⟨parts, hparts, h⟩ := bind_eq_ok_iff.mp h
    obtain rfl := pure_eq_ok_iff.mp h
    have hpiece : IsPiece parts
        (beginEnvironment level.environment ++ parts ++ endEnvironment level.environment) :=
      ⟨_, _, rfl⟩
    refine ⟨level.command, parts, hparts, IsPiece.append_left ?_ _⟩
    by_cases hdepth : depth = 0
    · rw [if_pos hdepth]
      exact (hpiece.append_left _).append_right _
    · rw [if_neg hdepth]
      exact hpiece

theorem exists_body_of_mem_nodes {q n : Question} (hn : n ∈ q.nodes) {output : String}
    (h : m.body path depth q = .ok output) :
    ∃ path' depth' inner, m.body path' depth' n = .ok inner ∧ IsPiece inner output := by
  induction q generalizing path depth output with
  | compound statement points qs ih =>
    rcases Question.eq_or_mem_nodes_child hn with rfl | ⟨child, hchild, hn⟩
    · exact ⟨path, depth, output, h, IsPiece.refl output⟩
    · obtain ⟨command, parts, hparts, hpiece⟩ := exists_children_of_body h
      obtain ⟨path', text, htext, hpiece'⟩ := exists_body_of_children hparts hchild
      obtain ⟨path'', depth', inner, hinner, hpiece''⟩ := ih child hchild hn htext
      exact ⟨path'', depth', inner, hinner, (hpiece''.trans hpiece').trans hpiece⟩
  | _ =>
    obtain rfl := List.mem_singleton.mp hn
    exact ⟨path, depth, output, h, IsPiece.refl output⟩

end Mode

end ExamVariants.Latex
