import ExamVariants.Text.Lines
import Mathlib.Data.List.Infix

namespace ExamVariants.Text

variable {c : Char}

/-- Some line of the text opens with the character. -/
def OpensLine (c : Char) (cs : List Char) : Prop := cs.head? = some c ∨ ['\n', c] <:+: cs

instance (c : Char) (cs : List Char) : Decidable (OpensLine c cs) :=
  inferInstanceAs (Decidable (_ ∨ _))

theorem head?_splitChars_iff (hc : c ≠ '\n') {cs p : List Char} {ps : List (List Char)}
    (h : splitChars '\n' cs = p :: ps) :
    (p.head? = some c ↔ cs.head? = some c) ∧
      ((∃ q ∈ ps, q.head? = some c) ↔ ['\n', c] <:+: cs) := by
  induction cs generalizing p ps with
  | nil =>
    obtain ⟨rfl, rfl⟩ := List.cons.inj h
    simp
  | cons d cs ih =>
    obtain ⟨q, qs, hcs⟩ := List.exists_cons_of_ne_nil (splitChars_ne_nil '\n' cs)
    obtain ⟨hfirst, hlater⟩ := ih hcs
    rw [splitChars, hcs] at h
    rw [List.infix_cons_iff, ← hlater]
    -- A new line makes the first piece empty and moves the old one to the later pieces.
    by_cases hd : d = '\n'
    · rw [if_pos hd] at h
      obtain ⟨rfl, rfl⟩ := List.cons.inj h
      have hopens : ['\n', c] <+: d :: cs ↔ q.head? = some c := by
        rw [List.cons_prefix_cons, hfirst]
        cases cs with
        | nil => simp
        | cons e cs => simp [hd, eq_comm]
      rw [hopens]
      simp [hd, Ne.symm hc]
    · rw [if_neg hd] at h
      obtain ⟨rfl, rfl⟩ := List.cons.inj h
      have hopens : ¬ ['\n', c] <+: d :: cs := by
        rw [List.cons_prefix_cons]
        exact fun hprefix => hd hprefix.1.symm
      simp [hopens]

theorem head?_dropReturn_iff (hc : c ≠ '\r') (p : List Char) :
    (dropReturn p).head? = some c ↔ p.head? = some c := by
  rw [dropReturn]
  split
  · next rest hrest =>
    have hp : p = rest.reverse ++ ['\r'] := by
      rw [← List.reverse_reverse p, hrest, List.reverse_cons]
    rw [hp, List.head?_append]
    cases rest.reverse with
    | nil => simpa using Ne.symm hc
    | cons d ds => rfl
  · rfl

theorem exists_mem_lineChars_iff (hnewLine : c ≠ '\n') (hreturn : c ≠ '\r') (cs : List Char) :
    (∃ line ∈ lineChars cs, line.head? = some c) ↔ OpensLine c cs := by
  obtain ⟨p, ps, hcs⟩ := List.exists_cons_of_ne_nil (splitChars_ne_nil '\n' cs)
  obtain ⟨hfirst, hlater⟩ := head?_splitChars_iff hnewLine hcs
  have hpieces : (∃ q ∈ splitChars '\n' cs, q.head? = some c) ↔ OpensLine c cs := by
    rw [hcs, OpensLine, ← hfirst, ← hlater, List.exists_mem_cons_iff]
  rw [← hpieces, lineChars]
  split
  · next hnil =>
    simp [List.reverse_eq_nil_iff.mp hnil]
  · next last closed hlast =>
    have hsplit : splitChars '\n' cs = closed.reverse ++ [last] := by
      rw [← List.reverse_reverse (splitChars '\n' cs), hlast, List.reverse_cons]
    have hclosed : (∃ line ∈ closed.reverse.map dropReturn, line.head? = some c) ↔
        ∃ q ∈ closed.reverse, q.head? = some c := by
      simp [head?_dropReturn_iff hreturn]
    have happend (qs : List (List Char)) : (∃ q ∈ qs ++ [last], q.head? = some c) ↔
        (∃ q ∈ qs, q.head? = some c) ∨ last.head? = some c := by
      simp [or_and_right, exists_or]
    dsimp only
    rw [hsplit, happend, ← hclosed]
    split
    · next hempty =>
      have hnone : ¬ last.head? = some c := by simp [List.isEmpty_iff.mp hempty]
      rw [or_iff_left hnone]
    · rw [happend]

end ExamVariants.Text
