import ExamVariants.Proofs.Decimal.Numerals
import ExamVariants.Proofs.Path.Location
import ExamVariants.Proofs.Question.Nesting
import Mathlib.Data.List.Nodup

namespace ExamVariants

namespace Question

theorem forall_placedFrom_of_placed {path : QuestionPath} {index : Nat} {qs : List Question}
    (h : ∀ q ∈ qs, ∀ path, ∀ n ∈ q.placed path, path <+: n.1) :
    ∀ n ∈ placedFrom path index qs, ∃ i, index ≤ i ∧ path ++ [i + 1] <+: n.1 := by
  induction qs generalizing index with
  | nil => exact List.forall_mem_nil _
  | cons q qs ih =>
    obtain ⟨hq, hqs⟩ := List.forall_mem_cons.mp h
    refine List.forall_mem_append.mpr ⟨fun n hn => ⟨index, Nat.le_refl index, hq _ n hn⟩, ?_⟩
    intro n hn
    obtain ⟨i, hi, hprefix⟩ := ih hqs n hn
    exact ⟨i, Nat.le_of_succ_le hi, hprefix⟩

theorem path_isPrefix {path : QuestionPath} {q : Question} : ∀ n ∈ q.placed path, path <+: n.1 := by
  induction q generalizing path with
  | compound statement points children ih =>
    rw [placed]
    refine List.forall_mem_cons.mpr ⟨List.prefix_rfl, fun n hn => ?_⟩
    obtain ⟨i, -, hprefix⟩ := forall_placedFrom_of_placed (fun q hq path => ih q hq) n hn
    exact (List.prefix_append path [i + 1]).trans hprefix
  | _ => exact List.forall_mem_singleton.mpr List.prefix_rfl

theorem index_eq_of_isPrefix {path path' : QuestionPath} {i j : Nat}
    (hi : path ++ [i + 1] <+: path') (hj : path ++ [j + 1] <+: path') : i = j := by
  have heq := List.prefix_of_prefix_length_le hi hj (by simp)
  simpa using heq

theorem nodup_paths_of_placed {path : QuestionPath} {index : Nat} {qs : List Question}
    (h : ∀ q ∈ qs, ∀ path, ((q.placed path).map Prod.fst).Nodup) :
    ((placedFrom path index qs).map Prod.fst).Nodup := by
  induction qs generalizing index with
  | nil => exact List.nodup_nil
  | cons q qs ih =>
    obtain ⟨hq, hqs⟩ := List.forall_mem_cons.mp h
    rw [placedFrom, List.map_append]
    refine List.nodup_append.mpr ⟨hq _, ih hqs, ?_⟩
    simp only [List.forall_mem_map]
    intro n hn n' hn' heq
    obtain ⟨i, hi, hprefix⟩ :=
      forall_placedFrom_of_placed (fun q _ path => path_isPrefix) n' hn'
    have hindex := index_eq_of_isPrefix (path_isPrefix n hn) (heq ▸ hprefix)
    omega

/-- No two questions stand at one path. -/
theorem nodup_paths_placed (path : QuestionPath) (q : Question) :
    ((q.placed path).map Prod.fst).Nodup := by
  induction q generalizing path with
  | compound statement points children ih =>
    rw [placed, List.map_cons]
    refine List.nodup_cons.mpr ⟨fun hmem => ?_, nodup_paths_of_placed ih⟩
    obtain ⟨n, hn, heq⟩ := List.mem_map.mp hmem
    obtain ⟨i, -, hprefix⟩ := forall_placedFrom_of_placed (fun q _ path => path_isPrefix) n hn
    have hlength := hprefix.length_le
    rw [heq, List.length_append, List.length_singleton] at hlength
    exact absurd hlength (Nat.not_succ_le_self _)
  | _ => exact List.nodup_singleton path

theorem nodup_paths_placedFrom (path : QuestionPath) (index : Nat) (qs : List Question) :
    ((placedFrom path index qs).map Prod.fst).Nodup :=
  nodup_paths_of_placed fun q _ path => nodup_paths_placed path q

end Question

namespace QuestionPath

theorem toList_label (path : QuestionPath) :
    path.label.toList = 'Q' :: ['.'].intercalate (path.map (Nat.toDigits 10)) := by
  have hdigits : (path.map toString).map String.toList = path.map (Nat.toDigits 10) := by
    rw [List.map_map]
    exact List.map_congr_left fun n _ => Decimal.toList_toString n
  rw [label, String.toList_append, String.toList_intercalate, hdigits]
  rfl

/-- A label can be cut at its dots, so it tells the path. -/
theorem label_inj {path path' : QuestionPath} (hne : path ≠ []) (hne' : path' ≠ [])
    (h : path.label = path'.label) : path = path' := by
  have hcut {path : QuestionPath} (hne : path ≠ []) :
      Text.splitChars '.' (path.label.toList.drop 1) = path.map (Nat.toDigits 10) := by
    rw [toList_label]
    refine Text.splitChars_intercalate (by simpa using hne) ?_
    exact List.forall_mem_map.mpr fun n _ => Decimal.notMem_toDigits (by decide) n
  refine Decimal.toDigits_injective.list_map ?_
  rw [← hcut hne, ← hcut hne', h]

end QuestionPath

theorem Question.nodup_labels (qs : List Question) :
    (((placedFrom [] 0 qs).map Prod.fst).map QuestionPath.label).Nodup := by
  have hne : ∀ path ∈ (placedFrom [] 0 qs).map Prod.fst, path ≠ [] := by
    refine List.forall_mem_map.mpr fun n hn hnil => ?_
    obtain ⟨i, -, hprefix⟩ := forall_placedFrom_of_placed (fun q _ path => path_isPrefix) n hn
    rw [hnil] at hprefix
    exact absurd (List.prefix_nil.mp hprefix) (by simp)
  refine List.Nodup.map_on (fun path hpath path' hpath' => ?_) (nodup_paths_placedFrom [] 0 qs)
  exact QuestionPath.label_inj (hne path hpath) (hne path' hpath')

end ExamVariants
