import ExamVariants.Proofs.Markup.Bytes

namespace ExamVariants.Markup

namespace Tag

def spelling (t : Tag) : List Char :=
  '<' :: ((if t.closing then ['/'] else []) ++ (t.name.toList ++ ['>']))

def WellNamed (t : Tag) : Prop := t.name.toList ≠ [] ∧ ∀ c ∈ t.name.toList, isNameChar c

/-- The tag stands in the text at its byte offsets. -/
def Occurs (t : Tag) (cs : List Char) : Prop :=
  t.WellNamed ∧ ∃ before after, cs = before ++ t.spelling ++ after ∧
    t.start = byteSize before ∧ t.stop = byteSize (before ++ t.spelling)

end Tag

theorem nameBefore?_eq_some_iff {cs name : List Char} :
    nameBefore? cs = some name ↔
      name ≠ [] ∧ (∀ c ∈ name, isNameChar c) ∧ ∃ after, cs = name ++ '>' :: after := by
  constructor
  · intro h
    unfold nameBefore? at h
    split at h
    next c name' after htake hdrop =>
      obtain rfl := Option.some.inj h
      refine ⟨List.cons_ne_nil _ _, ?_, after, ?_⟩
      · intro d hd
        exact List.all_eq_true.mp (List.all_takeWhile (l := cs)) d (htake ▸ hd)
      · rw [← htake, ← hdrop, List.takeWhile_append_dropWhile]
    next => cases h
  · rintro ⟨hne, hall, after, rfl⟩
    obtain ⟨c, name', rfl⟩ := List.exists_cons_of_ne_nil hne
    have hstop : isNameChar '>' = false := by decide
    unfold nameBefore?
    rw [List.takeWhile_append_of_pos hall, List.dropWhile_append_of_pos hall,
      List.takeWhile_cons_of_neg (by simp [hstop]), List.dropWhile_cons_of_neg (by simp [hstop]),
      List.append_nil]
    rfl

theorem utf8Size_of_isNameChar {c : Char} (h : isNameChar c = true) : c.utf8Size = 1 := by
  rw [Char.utf8Size_eq_one_iff]
  rcases (Bool.or_eq_true _ _).mp h with h | h
  · rcases (Bool.or_eq_true _ _).mp h with h | h
    · exact UInt32.le_trans (of_decide_eq_true h).2 (by decide)
    · exact UInt32.le_trans (of_decide_eq_true ((Bool.and_eq_true _ _).mp h).2) (by decide)
  · rw [beq_iff_eq.mp h]
    decide

theorem byteSize_of_nameChars {name : List Char} (h : ∀ c ∈ name, isNameChar c) :
    byteSize name = name.length := by
  induction name with
  | nil => rfl
  | cons c cs ih =>
    rw [byteSize, ih fun d hd => h d (List.mem_cons_of_mem c hd),
      utf8Size_of_isNameChar (h c List.mem_cons_self), List.length_cons, Nat.add_comm]

theorem byteSize_spelling {t : Tag} (h : t.WellNamed) :
    byteSize t.spelling = t.name.toList.length + (if t.closing then 3 else 2) := by
  have hname := byteSize_of_nameChars h.2
  have hlt : Char.utf8Size '<' = 1 := by decide
  have hgt : Char.utf8Size '>' = 1 := by decide
  have hslash : Char.utf8Size '/' = 1 := by decide
  cases hc : t.closing <;> simp [Tag.spelling, byteSize, hc, hname, hlt, hgt, hslash] <;> omega

theorem tagAt?_eq_some_iff {offset : Nat} {cs : List Char} {t : Tag} :
    tagAt? offset cs = some t ↔ t.WellNamed ∧ (∃ after, cs = t.spelling ++ after) ∧
      t.start = offset ∧ t.stop = offset + byteSize t.spelling := by
  constructor
  · intro h
    unfold tagAt? at h
    split at h
    next rest =>
      obtain ⟨name, hname, rfl⟩ := Option.map_eq_some_iff.mp h
      obtain ⟨hne, hall, after, rfl⟩ := nameBefore?_eq_some_iff.mp hname
      have hw : Tag.WellNamed ⟨true, String.ofList name, offset, offset + name.length + 3⟩ :=
        ⟨by simpa using hne, by simpa using hall⟩
      refine ⟨hw, ⟨after, by simp [Tag.spelling]⟩, rfl, ?_⟩
      rw [byteSize_spelling hw]
      simp [Nat.add_assoc]
    next rest _ =>
      obtain ⟨name, hname, rfl⟩ := Option.map_eq_some_iff.mp h
      obtain ⟨hne, hall, after, rfl⟩ := nameBefore?_eq_some_iff.mp hname
      have hw : Tag.WellNamed ⟨false, String.ofList name, offset, offset + name.length + 2⟩ :=
        ⟨by simpa using hne, by simpa using hall⟩
      refine ⟨hw, ⟨after, by simp [Tag.spelling]⟩, rfl, ?_⟩
      rw [byteSize_spelling hw]
      simp [Nat.add_assoc]
    next => cases h
  · rintro ⟨hw, ⟨after, rfl⟩, hstart, hstop⟩
    obtain ⟨closing, name, start, stop⟩ := t
    obtain rfl : start = offset := hstart
    have hname : nameBefore? (name.toList ++ '>' :: after) = some name.toList :=
      nameBefore?_eq_some_iff.mpr ⟨hw.1, hw.2, after, rfl⟩
    have hsize := byteSize_spelling hw
    cases closing with
    | true =>
      obtain rfl : stop = start + (name.toList.length + 3) := by simpa [hsize] using hstop
      simp [Tag.spelling, tagAt?, hname, Nat.add_assoc]
    | false =>
      obtain rfl : stop = start + (name.toList.length + 2) := by simpa [hsize] using hstop
      -- A name never begins with a slash, so the branch for closing tags does not apply.
      have hslash : ∀ rest, name.toList ++ '>' :: after = '/' :: rest → False := by
        intro rest hrest
        obtain ⟨c, cs, hcs⟩ := List.exists_cons_of_ne_nil hw.1
        rw [hcs, List.cons_append] at hrest
        have hc := hw.2 c (by simp [hcs])
        rw [(List.cons.inj hrest).1] at hc
        exact absurd hc (by decide)
      have hopen := tagAt?.eq_2 start (name.toList ++ '>' :: after) hslash
      simp [Tag.spelling, hopen, hname, Nat.add_assoc]

theorem mem_tagsFrom_iff {offset : Nat} {cs : List Char} {t : Tag} :
    t ∈ tagsFrom offset cs ↔ ∃ before rest, cs = before ++ rest ∧
      tagAt? (offset + byteSize before) rest = some t := by
  induction cs generalizing offset with
  | nil => simp [tagsFrom, tagAt?]
  | cons c cs ih =>
    rw [tagsFrom, List.mem_append, Option.mem_toList, ih]
    constructor
    · rintro (h | ⟨before, rest, rfl, h⟩)
      · exact ⟨[], c :: cs, rfl, h⟩
      · exact ⟨c :: before, rest, rfl, by simpa only [byteSize, Nat.add_assoc] using h⟩
    · rintro ⟨before, rest, hcs, h⟩
      cases before with
      | nil => exact Or.inl (by simpa only [hcs, List.nil_append, byteSize, Nat.add_zero] using h)
      | cons b before =>
        obtain ⟨rfl, rfl⟩ := List.cons.inj hcs
        exact Or.inr ⟨before, rest, rfl, by simpa only [byteSize, Nat.add_assoc] using h⟩

theorem mem_tags_iff {cs : List Char} {t : Tag} : t ∈ tags cs ↔ t.Occurs cs := by
  rw [tags, mem_tagsFrom_iff]
  constructor
  · rintro ⟨before, rest, rfl, h⟩
    obtain ⟨hw, ⟨after, rfl⟩, hstart, hstop⟩ := tagAt?_eq_some_iff.mp h
    refine ⟨hw, before, after, (List.append_assoc ..).symm, by omega, ?_⟩
    rw [byteSize_append]
    omega
  · rintro ⟨hw, before, after, rfl, hstart, hstop⟩
    rw [byteSize_append] at hstop
    exact ⟨before, t.spelling ++ after, List.append_assoc ..,
      tagAt?_eq_some_iff.mpr ⟨hw, ⟨after, rfl⟩, by omega, by omega⟩⟩

theorem tagsFrom_of_notMem {cs : List Char} (h : '<' ∉ cs) (offset : Nat) (rest : List Char) :
    tagsFrom offset (cs ++ rest) = tagsFrom (offset + byteSize cs) rest := by
  induction cs generalizing offset with
  | nil => rfl
  | cons c cs ih =>
    rw [List.mem_cons, not_or] at h
    have hnone : tagAt? offset (c :: (cs ++ rest)) = none := by
      unfold tagAt?
      split
      · next heq => exact absurd (List.cons.inj heq).1.symm h.1
      · next heq => exact absurd (List.cons.inj heq).1.symm h.1
      · rfl
    rw [List.cons_append, tagsFrom, hnone, Option.toList_none, List.nil_append, ih h.2, byteSize,
      Nat.add_assoc]

theorem lt_notMem_spelling_tail {t : Tag} (h : t.WellNamed) : '<' ∉ t.spelling.tail := by
  have hname : '<' ∉ t.name.toList := fun hc => absurd (h.2 '<' hc) (by decide)
  cases hc : t.closing <;> simp [Tag.spelling, hc, hname]

/-- A tag holds one `<` only, so no tag begins inside it. -/
theorem tagsFrom_spelling_tail {t : Tag} (h : t.WellNamed) (offset : Nat) (rest : List Char) :
    tagsFrom (offset + '<'.utf8Size) (t.spelling.tail ++ rest) =
      tagsFrom (offset + byteSize t.spelling) rest := by
  rw [tagsFrom_of_notMem (lt_notMem_spelling_tail h), Nat.add_assoc]
  rfl

theorem tagsFrom_spelling {t : Tag} (h : t.WellNamed) (hstop : t.stop = t.start + byteSize t.spelling)
    (rest : List Char) : tagsFrom t.start (t.spelling ++ rest) = t :: tagsFrom t.stop rest := by
  have hat : tagAt? t.start (t.spelling ++ rest) = some t :=
    tagAt?_eq_some_iff.mpr ⟨h, ⟨rest, rfl⟩, rfl, hstop⟩
  have hcons : t.spelling ++ rest = '<' :: (t.spelling.tail ++ rest) := rfl
  rw [hcons, tagsFrom, ← hcons, hat, tagsFrom_spelling_tail h, ← hstop]
  rfl

theorem stop_le_start_of_tagAt? {offset : Nat} {c : Char} {cs : List Char} {t u : Tag}
    (ht : tagAt? offset (c :: cs) = some t) (hu : u ∈ tagsFrom (offset + c.utf8Size) cs) :
    t.stop ≤ u.start := by
  obtain ⟨hnamed, ⟨after, hcs⟩, -, hstop⟩ := tagAt?_eq_some_iff.mp ht
  obtain ⟨rfl, rfl⟩ : c = '<' ∧ cs = t.spelling.tail ++ after := List.cons.inj hcs
  rw [tagsFrom_spelling_tail hnamed, ← hstop] at hu
  obtain ⟨before, rest, -, hrest⟩ := mem_tagsFrom_iff.mp hu
  have hstart := (tagAt?_eq_some_iff.mp hrest).2.2.1
  omega

theorem tagsFrom_pairwise (offset : Nat) (cs : List Char) :
    (tagsFrom offset cs).Pairwise (·.stop ≤ ·.start) := by
  induction cs generalizing offset with
  | nil => exact List.Pairwise.nil
  | cons c cs ih =>
    rw [tagsFrom]
    refine List.pairwise_append.mpr ⟨?_, ih _, ?_⟩
    · cases tagAt? offset (c :: cs) <;> simp
    · intro t ht u hu
      exact stop_le_start_of_tagAt? (Option.mem_toList.mp ht) hu

theorem tags_pairwise (cs : List Char) : (tags cs).Pairwise (·.stop ≤ ·.start) :=
  tagsFrom_pairwise 0 cs

theorem Tag.Occurs.start_lt_stop {cs : List Char} {t : Tag} (h : t.Occurs cs) : t.start < t.stop := by
  obtain ⟨-, before, -, -, hstart, hstop⟩ := h
  have hsize : 0 < byteSize t.spelling := by
    have := Char.utf8Size_pos '<'
    rw [Tag.spelling, byteSize]
    omega
  rw [byteSize_append] at hstop
  omega

theorem Tag.Occurs.boundary_start {cs : List Char} {t : Tag} (h : t.Occurs cs) :
    Boundary cs t.start := by
  obtain ⟨-, before, after, rfl, hstart, -⟩ := h
  exact ⟨before, by rw [List.append_assoc]; exact List.prefix_append .., hstart.symm⟩

theorem Tag.Occurs.boundary_stop {cs : List Char} {t : Tag} (h : t.Occurs cs) :
    Boundary cs t.stop := by
  obtain ⟨-, before, after, rfl, -, hstop⟩ := h
  exact ⟨before ++ t.spelling, List.prefix_append .., hstop.symm⟩

theorem Tag.Occurs.slice_eq_spelling {cs : List Char} {t : Tag} (h : t.Occurs cs) :
    slice t.start t.stop cs = t.spelling := by
  obtain ⟨-, before, after, rfl, hstart, hstop⟩ := h
  rw [hstart, hstop]
  exact slice_eq before t.spelling after

end ExamVariants.Markup
