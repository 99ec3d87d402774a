import ExamVariants.Proofs.Path.Location

namespace ExamVariants

theorem Text.intercalate_splitChars (sep : Char) (cs : List Char) :
    [sep].intercalate (splitChars sep cs) = cs := by
  induction cs with
  | nil => rfl
  | cons c cs ih =>
    obtain ⟨p, ps, hcs⟩ := List.exists_cons_of_ne_nil (splitChars_ne_nil sep cs)
    rw [splitChars]
    rw [hcs] at ih ⊢
    by_cases hc : c = sep
    · rw [if_pos hc, List.intercalate_cons_cons, ih, hc]
      rfl
    · rw [if_neg hc]
      cases ps with
      | nil => simpa using ih
      | cons q qs => simpa using ih

namespace Path

variable {name : String}

/-- The names along a path: the root of an absolute one, and every piece that is neither empty nor a
dot. A dot counts only where a path opens with it. -/
def components (p : String) : List String :=
  (if isAbsolute p then ["/"] else (pieces p).head?.toList.filter (· = ".")) ++
    (pieces p).filter fun q => q ≠ "" && q ≠ "."

theorem components_join (h : IsName name) (base : String) :
    components (join base name) = components base ++ [name] := by
  obtain ⟨habsolute, front, hjoined, hbase⟩ := exists_pieces_join h base
  have hkept : [name].filter (fun q => q ≠ "" && q ≠ ".") = [name] := by
    simp [h.ne_empty, h.ne_dot]
  -- At most an empty last piece gives way to the name, and that names nothing.
  have hrest : (pieces base).filter (fun q => q ≠ "" && q ≠ ".") =
      front.filter fun q => q ≠ "" && q ≠ "." := by
    rcases hbase with hbase | hbase
    · rw [hbase]
    · simp [hbase]
  have hhead : (front ++ [name]).head?.toList.filter (· = ".") =
      (pieces base).head?.toList.filter (· = ".") := by
    cases front with
    | nil =>
      rcases hbase with hbase | hbase
      · exact absurd (List.map_eq_nil_iff.mp hbase) (Text.splitChars_ne_nil _ _)
      · simp [hbase, h.ne_dot]
    | cons p front =>
      rcases hbase with hbase | hbase <;> simp [hbase]
  rw [components, components, habsolute, hjoined, List.filter_append, hkept, hhead, hrest,
    List.append_assoc]

theorem fileName?_join (h : IsName name) (base : String) :
    fileName? (join base name) = some name := by
  obtain ⟨-, front, hjoined, -⟩ := exists_pieces_join h base
  have hend : dropEmptyEnd (name :: front.reverse) = name :: front.reverse := by
    simp [dropEmptyEnd, h.ne_empty, h.ne_dot]
  rw [fileName?, hjoined, List.reverse_append, List.reverse_singleton, List.singleton_append, hend]
  simp [h.ne_dot, h.ne_dots]

theorem cutName_of_notMem (h : '.' ∉ name.toList) : cutName name = (name, none) := by
  rw [cutName, Text.splitChars_of_notMem h]
  rfl

theorem cutName_append (stem : String) {extension : String} (h : '.' ∉ extension.toList) :
    cutName (stem ++ "." ++ extension) =
      if stem = "" then (stem ++ "." ++ extension, none) else (stem, some extension) := by
  have hchars : (stem ++ "." ++ extension).toList = stem.toList ++ '.' :: extension.toList := by
    simp [String.toList_append]
  obtain ⟨p, ps, hps⟩ := List.exists_cons_of_ne_nil
    (List.reverse_ne_nil_iff.mpr (Text.splitChars_ne_nil '.' stem.toList))
  have hfront : ['.'].intercalate (p :: ps).reverse = stem.toList := by
    rw [← hps, List.reverse_reverse, Text.intercalate_splitChars]
  rw [cutName, hchars, Text.splitChars_append_cons, Text.splitChars_of_notMem h,
    List.reverse_append, List.reverse_singleton, List.singleton_append, hps]
  dsimp only
  rw [hfront]
  by_cases hstem : stem = ""
  · subst hstem
    rfl
  · obtain ⟨c, cs, hcs⟩ := List.exists_cons_of_ne_nil (l := stem.toList) (by simpa using hstem)
    rw [if_neg hstem, hcs]
    dsimp only
    rw [← hcs, String.ofList_toList, String.ofList_toList]

/-- The name is the stem, alone or with a dot and anything behind it. -/
def NamedAfter (stem name : String) : Prop := name = stem ∨ ∃ rest, name = stem ++ "." ++ rest

theorem namedAfter_cutName (name : String) : NamedAfter (cutName name).1 name := by
  by_cases hdot : '.' ∈ name.toList
  · obtain ⟨after, before, hchars, hafter⟩ :=
      List.eq_append_cons_of_mem (List.mem_reverse.mpr hdot)
    have hname : name = String.ofList before.reverse ++ "." ++ String.ofList after.reverse := by
      apply String.toList_injective
      rw [← List.reverse_reverse name.toList, hchars]
      simp [String.toList_append]
    have hextension : '.' ∉ (String.ofList after.reverse).toList := by simpa using hafter
    rw [hname, cutName_append _ hextension]
    split
    · exact .inl rfl
    · exact .inr ⟨_, rfl⟩
  · rw [cutName_of_notMem hdot]
    exact .inl rfl

theorem NamedAfter.unique {stem other : String} (h : NamedAfter stem name)
    (h' : NamedAfter other name) (hstem : '.' ∉ stem.toList) (hother : '.' ∉ other.toList) :
    stem = other := by
  have hfront {s : String} (hs : NamedAfter s name) (hdot : '.' ∉ s.toList) :
      (Text.splitChars '.' name.toList).head? = some s.toList := by
    rcases hs with rfl | ⟨rest, rfl⟩
    · rw [Text.splitChars_of_notMem hdot, List.head?_cons]
    · have hchars : (s ++ "." ++ rest).toList = s.toList ++ '.' :: rest.toList := by
        simp [String.toList_append]
      rw [hchars, Text.splitChars_append_cons, Text.splitChars_of_notMem hdot]
      rfl
  have hsame := (hfront h hstem).symm.trans (hfront h' hother)
  exact String.toList_injective (Option.some.inj hsame)

end Path

end ExamVariants
