import ExamVariants.Path
import Mathlib.Data.List.Basic

namespace ExamVariants

namespace Text

variable {sep : Char} {cs : List Char}

theorem splitChars_append_cons (sep : Char) (xs ys : List Char) :
    splitChars sep (xs ++ sep :: ys) = splitChars sep xs ++ splitChars sep ys := by
  induction xs with
  | nil => simp [splitChars]
  | cons x xs ih =>
    simp only [List.cons_append, splitChars]
    by_cases hx : x = sep
    · rw [if_pos hx, if_pos hx, ih, List.cons_append]
    · rw [if_neg hx, if_neg hx, ih]
      cases hxs : splitChars sep xs with
      | nil => exact absurd hxs (splitChars_ne_nil sep xs)
      | cons p ps => rfl

theorem splitChars_of_notMem (h : sep ∉ cs) : splitChars sep cs = [cs] := by
  induction cs with
  | nil => rfl
  | cons c cs ih =>
    have hc : c ≠ sep := fun hc => h (by simp [hc])
    rw [splitChars, if_neg hc, ih fun hmem => h (List.mem_cons_of_mem c hmem)]

theorem notMem_of_mem_splitChars {p : List Char} (h : p ∈ splitChars sep cs) : sep ∉ p := by
  induction cs generalizing p with
  | nil =>
    obtain rfl : p = [] := by simpa [splitChars] using h
    simp
  | cons c cs ih =>
    rw [splitChars] at h
    by_cases hc : c = sep
    · rw [if_pos hc] at h
      rcases List.mem_cons.mp h with rfl | h
      · simp
      · exact ih h
    · rw [if_neg hc] at h
      cases hcs : splitChars sep cs with
      | nil => exact absurd hcs (splitChars_ne_nil sep cs)
      | cons q qs =>
        rw [hcs] at h ih
        rcases List.mem_cons.mp h with rfl | h
        · have hq := ih List.mem_cons_self
          simp [hq, Ne.symm hc]
        · exact ih (List.mem_cons_of_mem q h)

theorem splitChars_intercalate {ps : List (List Char)} (hne : ps ≠ []) (h : ∀ p ∈ ps, sep ∉ p) :
    splitChars sep ([sep].intercalate ps) = ps := by
  induction ps with
  | nil => exact absurd rfl hne
  | cons p ps ih =>
    have hp := splitChars_of_notMem (h p List.mem_cons_self)
    cases ps with
    | nil => rw [List.intercalate_singleton, hp]
    | cons q qs =>
      have hrest := ih (List.cons_ne_nil q qs) fun r hr => h r (List.mem_cons_of_mem p hr)
      rw [List.intercalate_cons_cons, List.append_assoc, List.singleton_append,
        splitChars_append_cons, hp, hrest, List.singleton_append]

theorem head?_eq_some_sep_iff :
    cs.head? = some sep ↔ (splitChars sep cs).head? = some [] ∧ 1 < (splitChars sep cs).length := by
  cases cs with
  | nil => simp [splitChars]
  | cons c cs =>
    have hpos := List.length_pos_iff.mpr (splitChars_ne_nil sep cs)
    by_cases hc : c = sep
    · simp [splitChars, hc, hpos]
    · rw [splitChars, if_neg hc]
      cases splitChars sep cs <;> simp [hc]

end Text

namespace Path

theorem notMem_of_mem_pieces {p q : String} (h : q ∈ pieces p) : '/' ∉ q.toList := by
  obtain ⟨cs, hcs, rfl⟩ := List.mem_map.mp h
  simpa using Text.notMem_of_mem_splitChars hcs

theorem pieces_append_slash (p q : String) : pieces (p ++ "/" ++ q) = pieces p ++ pieces q := by
  have hchars : (p ++ "/" ++ q).toList = p.toList ++ '/' :: q.toList := by
    simp [String.toList_append]
  rw [pieces, Text.split, hchars, Text.splitChars_append_cons, List.map_append]
  rfl

theorem pieces_of_notMem {p : String} (h : '/' ∉ p.toList) : pieces p = [p] := by
  rw [pieces, Text.split, Text.splitChars_of_notMem h]
  simp

theorem pieces_intercalate {ps : List String} (hne : ps ≠ []) (h : ∀ p ∈ ps, '/' ∉ p.toList) :
    pieces ("/".intercalate ps) = ps := by
  have hchars : ("/".intercalate ps).toList = ['/'].intercalate (ps.map String.toList) := by
    rw [String.toList_intercalate]
    rfl
  rw [pieces, Text.split, hchars, Text.splitChars_intercalate (by simpa using hne) (by simpa using h)]
  simp

theorem isAbsolute_iff {p : String} :
    isAbsolute p = true ↔ (pieces p).head? = some "" ∧ 1 < (pieces p).length := by
  have hhead : (pieces p).head? = some "" ↔ (Text.splitChars '/' p.toList).head? = some [] := by
    rw [pieces, Text.split, List.head?_map]
    cases (Text.splitChars '/' p.toList).head? <;> simp
  rw [isAbsolute, beq_iff_eq, Text.head?_eq_some_sep_iff, hhead, pieces, Text.split, List.length_map]

theorem isAbsolute_append {p : String} (h : p ≠ "") (q : String) :
    isAbsolute (p ++ q) = isAbsolute p := by
  cases hchars : p.toList with
  | nil => exact absurd (String.toList_injective (by simpa using hchars)) h
  | cons c cs => simp [isAbsolute, String.toList_append, hchars]

/-- A piece that names an entry of a directory. -/
structure IsName (name : String) : Prop where
  ne_empty : name ≠ ""
  ne_dot : name ≠ "."
  ne_dots : name ≠ ".."
  noSlash : '/' ∉ name.toList

variable {name : String}

theorem isName_of_mem {c : Char} (hc : c ∈ name.toList) (hdot : c ≠ '.')
    (noSlash : '/' ∉ name.toList) : IsName name := by
  refine ⟨?_, ?_, ?_, noSlash⟩
  · rintro rfl
    simp at hc
  · rintro rfl
    exact hdot (by simpa using hc)
  · rintro rfl
    exact hdot (by simpa using hc)

theorem descend_of_isName (h : IsName name) (names : Location) :
    descend names name = name :: names := by
  simp [descend, h.ne_empty, h.ne_dot, h.ne_dots]

theorem descend_of_nothing {piece : String} (h : piece = "" ∨ piece = ".") (names : Location) :
    descend names piece = names := by
  simp [descend, h]

theorem locatePieces_append_name (h : IsName name) (absolute : Bool) (ps : List String) :
    locatePieces absolute (ps ++ [name]) = locatePieces absolute ps ++ [name] := by
  simp [locatePieces, descend_of_isName h]

theorem not_isAbsolute_of_isName (h : IsName name) : isAbsolute name = false := by
  rw [Bool.eq_false_iff]
  intro habsolute
  have := (isAbsolute_iff.mp habsolute).2
  simp [pieces_of_notMem h.noSlash] at this

theorem locatePieces_append_empty (absolute : Bool) (ps : List String) :
    locatePieces absolute (ps ++ [""]) = locatePieces absolute ps := by
  simp [locatePieces, descend_of_nothing]

theorem join_of_isName (h : IsName name) (base : String) :
    join base name =
      if base = "" ∨ base.toList.getLast? = some '/' then base ++ name else base ++ "/" ++ name := by
  simp [join, not_isAbsolute_of_isName h]

theorem exists_pieces_join (h : IsName name) (base : String) :
    isAbsolute (join base name) = isAbsolute base ∧
      ∃ front, pieces (join base name) = front ++ [name] ∧
        (pieces base = front ∨ pieces base = front ++ [""]) := by
  have hname := pieces_of_notMem h.noSlash
  by_cases hbase : base = ""
  · subst hbase
    rw [join_of_isName h, if_pos (.inl rfl), String.empty_append]
    exact ⟨not_isAbsolute_of_isName h, [], hname, .inr (pieces_of_notMem (by simp))⟩
  by_cases hslash : base.toList.getLast? = some '/'
  · obtain ⟨cs, hcs⟩ := List.getLast?_eq_some_iff.mp hslash
    have hfront : base = String.ofList cs ++ "/" ++ "" := by
      apply String.toList_injective
      simp [hcs, String.toList_append]
    have hpieces : pieces base = pieces (String.ofList cs) ++ [""] := by
      rw [hfront, pieces_append_slash, pieces_of_notMem (p := "") (by simp)]
    have hjoined : pieces (base ++ name) = pieces (String.ofList cs) ++ [name] := by
      rw [hfront, String.append_empty, pieces_append_slash, hname]
    rw [join_of_isName h, if_pos (.inr hslash)]
    exact ⟨isAbsolute_append hbase name, _, hjoined, .inr hpieces⟩
  · rw [join_of_isName h, if_neg (not_or.mpr ⟨hbase, hslash⟩), String.append_assoc,
      isAbsolute_append hbase, ← String.append_assoc, pieces_append_slash, hname]
    exact ⟨rfl, _, rfl, .inl rfl⟩

theorem locate_join (h : IsName name) (base : String) :
    locate (join base name) = locate base ++ [name] := by
  obtain ⟨habsolute, front, hjoined, hbase⟩ := exists_pieces_join h base
  rw [locate, habsolute, hjoined, locatePieces_append_name h, locate]
  rcases hbase with hbase | hbase
  · rw [hbase]
  · rw [hbase, locatePieces_append_empty]

theorem dropEmptyEnd_suffix (ps : List String) : dropEmptyEnd ps <:+ ps := by
  induction ps with
  | nil => exact List.suffix_rfl
  | cons p ps ih =>
    rw [dropEmptyEnd]
    split
    · exact ih.trans (List.suffix_cons p ps)
    · exact List.suffix_rfl

theorem dropEmptyEnd_ne_empty {ps rest : List String} {p : String}
    (h : dropEmptyEnd ps = p :: rest) : p ≠ "" := by
  induction ps with
  | nil => cases h
  | cons q qs ih =>
    rw [dropEmptyEnd] at h
    split at h
    · exact ih h
    · next hq =>
      obtain ⟨rfl, -⟩ := List.cons.inj h
      intro hempty
      exact hq (by simp [hempty])

theorem locatePieces_dropEmptyEnd (absolute : Bool) (ps : List String) :
    locatePieces absolute (dropEmptyEnd ps).reverse = locatePieces absolute ps.reverse := by
  induction ps with
  | nil => rfl
  | cons p ps ih =>
    rw [dropEmptyEnd]
    split
    · next hp =>
      have hnothing : p = "" ∨ p = "." := by
        simp only [Bool.or_eq_true, Bool.and_eq_true, decide_eq_true_eq] at hp
        exact hp.imp id And.left
      rw [ih]
      simp [locatePieces, descend_of_nothing hnothing]
    · rfl

theorem locate_parent {p q : String} {rest : List String}
    (h : dropEmptyEnd (pieces p).reverse = q :: rest) :
    locate ((parent? p).getD "") = locatePieces (isAbsolute p) (dropEmptyEnd rest).reverse := by
  cases hkept : dropEmptyEnd rest with
  | nil =>
    have hparent : parent? p = some (if isAbsolute p then "/" else "") := by
      simp [parent?, h, hkept]
    rw [hparent]
    cases isAbsolute p <;> rfl
  | cons r kept =>
    have hparent : parent? p = some ("/".intercalate (r :: kept).reverse) := by
      simp [parent?, h, hkept]
    obtain ⟨dropped, hdropped⟩ := dropEmptyEnd_suffix (pieces p).reverse
    obtain ⟨before, hbefore⟩ := dropEmptyEnd_suffix rest
    rw [h] at hdropped
    rw [hkept] at hbefore
    have hfront : pieces p = (r :: kept).reverse ++ (before.reverse ++ q :: dropped.reverse) := by
      rw [← List.reverse_reverse (pieces p), ← hdropped, ← hbefore]
      simp
    have hjoined : pieces ("/".intercalate (r :: kept).reverse) = (r :: kept).reverse := by
      apply pieces_intercalate (by simp)
      intro s hs
      exact notMem_of_mem_pieces (p := p) (hfront ▸ List.mem_append_left _ hs)
    -- Both paths open with the same piece, and an empty one is the only piece of neither.
    have habsolute : isAbsolute ("/".intercalate (r :: kept).reverse) = isAbsolute p := by
      have hr := dropEmptyEnd_ne_empty hkept
      rw [Bool.eq_iff_iff, isAbsolute_iff, isAbsolute_iff, hjoined, hfront]
      cases kept with
      | nil => simp [hr]
      | cons s kept => simp; omega
    rw [hparent, Option.getD_some, locate, hjoined, habsolute]

/-- A path with a file name leads to an entry of the place that its parent leads to. -/
theorem locate_of_fileName? {p : String} (h : fileName? p = some name) :
    IsName name ∧ locate p = locate ((parent? p).getD "") ++ [name] := by
  cases hend : dropEmptyEnd (pieces p).reverse with
  | nil => simp [fileName?, hend] at h
  | cons q rest =>
    have hq : ¬(q = "." ∨ q = "..") ∧ q = name := by simpa [fileName?, hend] using h
    obtain ⟨hdots, rfl⟩ := hq
    have hmem : q ∈ pieces p := by
      have hsuffix := (dropEmptyEnd_suffix (pieces p).reverse).subset
      exact List.mem_reverse.mp (hsuffix (hend ▸ List.mem_cons_self))
    have hname : IsName q :=
      ⟨dropEmptyEnd_ne_empty hend, fun hq => hdots (.inl hq), fun hq => hdots (.inr hq),
        notMem_of_mem_pieces hmem⟩
    refine ⟨hname, ?_⟩
    rw [locate_parent hend, locatePieces_dropEmptyEnd, ← locatePieces_append_name hname,
      ← List.reverse_cons, ← hend, locatePieces_dropEmptyEnd, List.reverse_reverse, locate]

theorem locate_withFileName_of_some {p old : String} (h : fileName? p = some old)
    (hname : IsName name) :
    locate (withFileName p name) = locate ((parent? p).getD "") ++ [name] := by
  rw [withFileName, h]
  exact locate_join hname _

theorem locate_withFileName_of_none {p : String} (h : fileName? p = none) (hname : IsName name) :
    locate (withFileName p name) = locate p ++ [name] := by
  rw [withFileName, h]
  exact locate_join hname p

end Path

end ExamVariants
