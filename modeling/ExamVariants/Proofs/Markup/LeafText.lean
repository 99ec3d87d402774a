import ExamVariants.Proofs.Markup.Recursion

namespace ExamVariants.Markup

/-- An opening tag of the text has a closing tag of its name somewhere behind it. -/
def HasClosedTag (cs : List Char) : Prop :=
  ∃ t u : Tag, t.Occurs cs ∧ u.Occurs cs ∧ t.closing = false ∧ u.closing = true ∧
    t.key = u.key ∧ t.start < u.start

variable {cs : List Char}

theorem exists_tagOf_eq {t : Tag} (h : t.Occurs cs) :
    ∃ i < (tags cs).length, tagOf (tags cs) i = t := by
  obtain ⟨i, hi, rfl⟩ := List.getElem_of_mem (mem_tags_iff.mpr h)
  exact ⟨i, hi, by simp [tagOf, hi]⟩

theorem start_lt_stop_tagOf {i : Nat} (hi : i < (tags cs).length) :
    (tagOf (tags cs) i).start < (tagOf (tags cs) i).stop :=
  (occurs_tagOf hi).start_lt_stop

theorem start_lt_start_iff {i j : Nat} (hi : i < (tags cs).length) (hj : j < (tags cs).length) :
    (tagOf (tags cs) i).start < (tagOf (tags cs) j).start ↔ i < j := by
  have hi' := start_lt_stop_tagOf hi
  have hj' := start_lt_stop_tagOf hj
  rcases Nat.lt_trichotomy i j with hij | rfl | hji
  · have hord := stop_le_start_tagOf hij hj
    omega
  · omega
  · have hord := stop_le_start_tagOf hji hi
    omega

theorem stop_le_start_iff {i j : Nat} (hi : i < (tags cs).length) (hj : j < (tags cs).length) :
    (tagOf (tags cs) i).stop ≤ (tagOf (tags cs) j).start ↔ i < j := by
  refine ⟨fun h => (start_lt_start_iff hi hj).mp ?_, fun hij => stop_le_start_tagOf hij hj⟩
  have hi' := start_lt_stop_tagOf hi
  omega

theorem hasClosedTag_iff :
    HasClosedTag cs ↔ ∃ i j, i < j ∧ j < (tags cs).length ∧ (tagOf (tags cs) i).closing = false ∧
      (tagOf (tags cs) j).closing = true ∧
      (tagOf (tags cs) i).key = (tagOf (tags cs) j).key := by
  constructor
  · rintro ⟨t, u, ht, hu, hopen, hclose, hkey, hlt⟩
    obtain ⟨i, hi, rfl⟩ := exists_tagOf_eq ht
    obtain ⟨j, hj, rfl⟩ := exists_tagOf_eq hu
    exact ⟨i, j, (start_lt_start_iff hi hj).mp hlt, hj, hopen, hclose, hkey⟩
  · rintro ⟨i, j, hij, hj, hopen, hclose, hkey⟩
    have hi := Nat.lt_trans hij hj
    exact ⟨_, _, occurs_tagOf hi, occurs_tagOf hj, hopen, hclose, hkey,
      (start_lt_start_iff hi hj).mpr hij⟩

theorem exists_partner?_between {ts : List Tag} {i j : Nat} (hij : i < j) (hj : j < ts.length)
    (hopen : (tagOf ts i).closing = false) (hclose : (tagOf ts j).closing = true)
    (hkey : (tagOf ts i).key = (tagOf ts j).key) :
    ∃ o c, i ≤ o ∧ c ≤ j ∧ partner? ts o = some c := by
  obtain ⟨o, c, hio, hcj, hpair⟩ := exists_mem_pairing_between hij hopen hclose hkey
  exact ⟨o, c, hio, hcj, partner?_eq_some_iff.mpr (pairing_subset hj hpair)⟩

theorem keptIn_eq_nil_iff {ts : List Tag} {first last : Nat} :
    keptIn ts first last = [] ↔ pairsIn ts first last = [] := by
  constructor
  · intro h
    cases hhead : (pairsIn ts first last).head? with
    | none => exact List.head?_eq_none_iff.mp hhead
    | some p =>
      rw [keptIn_eq_cons hhead] at h
      exact absurd h (List.cons_ne_nil _ _)
  · intro h
    exact keptIn_eq_nil (List.head?_eq_none_iff.mpr h)

theorem pairsIn_eq_nil_iff {ts : List Tag} {first last : Nat} :
    pairsIn ts first last = [] ↔
      ∀ o c, first ≤ o → c < last → partner? ts o ≠ some c := by
  rw [List.eq_nil_iff_forall_not_mem]
  constructor
  · intro h o c ho hc hpartner
    exact h (o, c) (mem_pairsIn_iff.mpr ⟨ho, hc, hpartner⟩)
  · intro h p hp
    obtain ⟨ho, hc, hpartner⟩ := mem_pairsIn_iff.mp hp
    exact h p.1 p.2 ho hc hpartner

theorem pairsIn_pairwise (ts : List Tag) (first last : Nat) :
    (pairsIn ts first last).Pairwise (·.1 < ·.1) := by
  rw [pairsIn, List.pairwise_filterMap]
  refine (List.pairwise_lt_range' 1 Nat.one_pos).imp fun {i j} hij p hp q hq => ?_
  rw [← (pairAt?_eq_some_iff.mp hp).1, ← (pairAt?_eq_some_iff.mp hq).1]
  exact hij

theorem le_of_head?_pairsIn {ts : List Tag} {first last : Nat} {p q : Nat × Nat}
    (h : (pairsIn ts first last).head? = some p) (hq : q ∈ pairsIn ts first last) :
    p.1 ≤ q.1 := by
  obtain ⟨ps, hps⟩ := List.head?_eq_some_iff.mp h
  have hpairwise := pairsIn_pairwise ts first last
  rw [hps] at hq hpairwise
  rcases List.mem_cons.mp hq with rfl | hq
  · exact Nat.le_refl _
  · exact Nat.le_of_lt ((List.pairwise_cons.mp hpairwise).1 q hq)

theorem kept_eq_nil_iff (raw : String) : kept raw = [] ↔ ¬ HasClosedTag raw.toList := by
  rw [kept, keptPairs_eq_keptIn, keptIn_eq_nil_iff, pairsIn_eq_nil_iff, hasClosedTag_iff]
  constructor
  · rintro h ⟨i, j, hij, hj, hopen, hclose, hkey⟩
    obtain ⟨o, c, -, hcj, hpartner⟩ := exists_partner?_between hij hj hopen hclose hkey
    exact h o c (Nat.zero_le o) (Nat.lt_of_le_of_lt hcj hj) hpartner
  · intro h o c _ _ hpartner
    exact h ⟨o, c, of_mem_pairing (partner?_eq_some_iff.mp hpartner)⟩

theorem parse_eq_simple_iff (raw : String) :
    parse raw = .ok (.simple raw [.inherit]) ↔ ¬ HasClosedTag raw.toList := by
  rw [← kept_eq_nil_iff, parse_eq, ofLeaves_pieces]
  constructor
  · intro h
    by_contra hkept
    rw [if_neg hkept] at h
    split at h
    · cases h
    · cases h
  · intro hkept
    rw [if_pos hkept, hkept]
    rfl

theorem parse_of_hasClosedTag {raw : String} (h : HasClosedTag raw.toList) :
    (∃ e, parse raw = .error e) ∨
      ∃ ls : List Leaf, 3 ≤ ls.length ∧ parse raw = .ok (.compound (ls.map Segment.ofLeaf)) := by
  have hkept : kept raw ≠ [] := fun hnil => (kept_eq_nil_iff raw).mp hnil h
  have hpos := List.length_pos_iff.mpr hkept
  rw [parse_eq, ofLeaves_pieces, if_neg hkept]
  cases (kept raw).find? (unknown (tags raw.toList)) with
  | some p => exact .inl ⟨_, rfl⟩
  | none =>
    refine .inr ⟨pieces raw, ?_, rfl⟩
    rw [length_pieces]
    omega

/-- The tags of the span are those of the text that stand between its bytes. -/
structure Span.Fits (cs : List Char) (s : Span) : Prop where
  boundary_start : Boundary cs s.start
  boundary_stop : Boundary cs s.stop
  start_le_stop : s.start ≤ s.stop
  mem_iff : ∀ i < (tags cs).length, s.firstTag ≤ i ∧ i < s.endTag ↔
    s.start ≤ (tagOf (tags cs) i).start ∧ (tagOf (tags cs) i).stop ≤ s.stop

namespace Span.Fits

theorem whole (cs : List Char) : Fits cs ⟨0, (tags cs).length, 0, byteSize cs⟩ := by
  refine ⟨boundary_zero cs, boundary_byteSize cs, Nat.zero_le _, fun i hi => ?_⟩
  have hstop := (occurs_tagOf hi).stop_le_byteSize
  exact iff_of_true ⟨Nat.zero_le i, hi⟩ ⟨Nat.zero_le _, hstop⟩

variable {first last start stop o c : Nat}

theorem before (h : Fits cs ⟨first, last, start, stop⟩) (hfirst : first ≤ o) (hlast : o < last)
    (ho : o < (tags cs).length) :
    Fits cs ⟨first, o, start, (tagOf (tags cs) o).start⟩ := by
  have hopen := (h.mem_iff o ho).mp ⟨hfirst, hlast⟩
  refine ⟨h.boundary_start, (occurs_tagOf ho).boundary_start, hopen.1, fun i hi => ?_⟩
  have hmem := h.mem_iff i hi
  have hio := stop_le_start_iff hi ho
  have ho' := start_lt_stop_tagOf ho
  dsimp only at hopen hmem ⊢
  omega

theorem inside (hoc : o < c) (hc : c < (tags cs).length) :
    Fits cs ⟨o + 1, c, (tagOf (tags cs) o).stop, (tagOf (tags cs) c).start⟩ := by
  have ho := Nat.lt_trans hoc hc
  refine ⟨(occurs_tagOf ho).boundary_stop, (occurs_tagOf hc).boundary_start,
    stop_le_start_tagOf hoc hc, fun i hi => ?_⟩
  have hoi := stop_le_start_iff ho hi
  have hic := stop_le_start_iff hi hc
  dsimp only
  omega

theorem behind (h : Fits cs ⟨first, last, start, stop⟩) (hfirst : first ≤ c) (hlast : c < last)
    (hc : c < (tags cs).length) :
    Fits cs ⟨c + 1, last, (tagOf (tags cs) c).stop, stop⟩ := by
  have hclose := (h.mem_iff c hc).mp ⟨hfirst, hlast⟩
  refine ⟨(occurs_tagOf hc).boundary_stop, h.boundary_stop, hclose.2, fun i hi => ?_⟩
  have hmem := h.mem_iff i hi
  have hci := stop_le_start_iff hc hi
  have hc' := start_lt_stop_tagOf hc
  dsimp only at hclose hmem ⊢
  omega

end Span.Fits

theorem Tag.Occurs.within {t : Tag} {xs mid zs : List Char} (h : t.Occurs mid)
    (hcs : cs = xs ++ mid ++ zs) :
    Tag.Occurs { t with start := byteSize xs + t.start, stop := byteSize xs + t.stop } cs := by
  obtain ⟨hnamed, before, after, rfl, hstart, hstop⟩ := h
  refine ⟨hnamed, xs ++ before, after ++ zs, ?_, ?_, ?_⟩
  · rw [hcs]
    simp only [List.append_assoc]
    rfl
  · rw [byteSize_append, hstart]
  · rw [List.append_assoc, byteSize_append, hstop]
    rfl

/-- Between the bytes of a span without a pair, no tag is closed. -/
theorem not_hasClosedTag_slice {s : Span} (hfits : s.Fits cs)
    (hnone : pairsIn (tags cs) s.firstTag s.endTag = []) :
    ¬ HasClosedTag (slice s.start s.stop cs) := by
  rintro ⟨t, u, ht, hu, hopen, hclose, hkey, hlt⟩
  obtain ⟨xs, zs, hcs, hstart, hstop⟩ :=
    exists_eq_append_slice hfits.boundary_start hfits.boundary_stop hfits.start_le_stop
  -- Both tags stand in the whole text, so a pair of it lies between them.
  obtain ⟨i, hi, hti⟩ := exists_tagOf_eq (ht.within hcs)
  obtain ⟨j, hj, huj⟩ := exists_tagOf_eq (hu.within hcs)
  have hij : i < j := by
    rw [← start_lt_start_iff hi hj, hti, huj]
    exact Nat.add_lt_add_left hlt _
  obtain ⟨o, c, hio, hcj, hpartner⟩ := exists_partner?_between hij hj (by rw [hti]; exact hopen)
    (by rw [huj]; exact hclose) (by rw [hti, huj]; exact hkey)
  -- By their bytes the two tags are tags of the span, and so is the pair between them.
  have htspan := hfits.mem_iff i hi
  have huspan := hfits.mem_iff j hj
  rw [hti] at htspan
  rw [huj] at huspan
  have htsize := ht.stop_le_byteSize
  have husize := hu.stop_le_byteSize
  refine pairsIn_eq_nil_iff.mp hnone o c ?_ ?_ hpartner
  · dsimp only at htspan
    omega
  · dsimp only at huspan
    omega

theorem not_hasClosedTag_of_mem_spanLeaves {s : Span} (hfits : s.Fits cs)
    (hknown : (keptIn (tags cs) s.firstTag s.endTag).find? (unknown (tags cs)) = none)
    (enclosing : List Style) :
    ∀ l ∈ spanLeaves cs (tags cs) enclosing s.firstTag s.endTag s.start s.stop,
      ¬ HasClosedTag l.text.toList := by
  obtain ⟨first, last, start, stop⟩ := s
  have hpiece {s : Span} (hfits : s.Fits cs) (hnone : pairsIn (tags cs) s.firstTag s.endTag = [])
      (styles : List Style) :
      ¬ HasClosedTag (piece cs s.start s.stop styles).text.toList := by
    rw [piece, String.toList_ofList]
    exact not_hasClosedTag_slice hfits hnone
  induction first, last using span_induction (tags cs) generalizing enclosing start stop with
  | plain first last hhead =>
    rw [spanLeaves_of_plain hhead]
    intro l hl
    obtain rfl := List.mem_singleton.mp hl
    exact hpiece hfits (List.head?_eq_none_iff.mp hhead) enclosing
  | split first last o c hhead inside after =>
    obtain ⟨style, hstyle, hinner, hafter⟩ := exists_styleOf?_of_known hhead hknown
    obtain ⟨hfirst, hoc, hlast, hpartner⟩ := of_head?_pairsIn hhead
    have hc := (of_mem_pairing (partner?_eq_some_iff.mp hpartner)).2.1
    have ho := Nat.lt_trans hoc hc
    -- No pair opens before the first one, so the text in front of it is plain.
    have hbefore : pairsIn (tags cs) first o = [] := by
      rw [pairsIn_eq_nil_iff]
      intro o' c' ho' hc' hpartner'
      have hmem : (o', c') ∈ pairsIn (tags cs) first last :=
        mem_pairsIn_iff.mpr ⟨ho', by dsimp only; omega, hpartner'⟩
      have hle := le_of_head?_pairsIn hhead hmem
      have hlt := lt_of_partner? hpartner'
      omega
    rw [spanLeaves_eq_cons hhead hstyle, List.forall_mem_cons, List.forall_mem_append]
    refine ⟨hpiece (hfits.before hfirst (Nat.lt_trans hoc hlast) ho) hbefore enclosing, ?_, ?_⟩
    · exact inside _ _ _ (Span.Fits.inside hoc hc) hinner
    · exact after _ _ _ (hfits.behind (Nat.le_trans hfirst (Nat.le_of_lt hoc)) hlast hc) hafter

theorem not_hasClosedTag_of_mem_leaves {raw : String} {g : Segment} (h : parse raw = .ok g)
    {l : Leaf} (hl : l ∈ g.leaves) : ¬ HasClosedTag l.text.toList := by
  rw [parse_eq, kept, keptPairs_eq_keptIn] at h
  cases hknown : (keptIn (tags raw.toList) 0 (tags raw.toList).length).find?
      (unknown (tags raw.toList)) with
  | some p =>
    rw [hknown] at h
    cases h
  | none =>
    rw [hknown] at h
    obtain rfl := Except.ok.inj h
    rw [Segment.leaves_ofLeaves, pieces, kept, leavesBetween_keptPairs] at hl
    exact not_hasClosedTag_of_mem_spanLeaves (Span.Fits.whole _) hknown [] l hl

/-- What has been parsed stays as it is: every leaf text parses into itself. A text parses into
itself unless an opening tag has a closing tag of its name somewhere behind it; then it gives an
error or at least three leaves. -/
theorem leaf_texts_parse_as_they_are :
    (∀ raw g, parse raw = .ok g →
      ∀ l ∈ g.leaves, parse l.text = .ok (.simple l.text [.inherit])) ∧
    ∀ raw, (parse raw = .ok (.simple raw [.inherit]) ↔ ¬ HasClosedTag raw.toList) ∧
      (HasClosedTag raw.toList → (∃ e, parse raw = .error e) ∨
        ∃ ls : List Leaf, 3 ≤ ls.length ∧ parse raw = .ok (.compound (ls.map Segment.ofLeaf))) := by
  refine ⟨fun raw g h l hl => ?_, fun raw => ⟨parse_eq_simple_iff raw, parse_of_hasClosedTag⟩⟩
  exact (parse_eq_simple_iff l.text).mpr (not_hasClosedTag_of_mem_leaves h hl)

/-- Tags that cross: the pair of `bold` is kept, and each `i` stands alone in its leaf. -/
theorem leaf_texts_parse_as_they_are_crossing :
    ∃ g, parse "<bold>a<i>b</bold>c</i>" = .ok g ∧ ⟨"a<i>b", [.bold]⟩ ∈ g.leaves ∧
      parse "a<i>b" = .ok (.simple "a<i>b" [.inherit]) ∧
      HasClosedTag "<bold>a<i>b</bold>c</i>".toList ∧
      ((∃ e, parse "<bold>a<i>b</bold>c</i>" = .error e) ∨ ∃ ls : List Leaf, 3 ≤ ls.length ∧
        parse "<bold>a<i>b</bold>c</i>" = .ok (.compound (ls.map Segment.ofLeaf))) := by
  have hleaves : leaves "<bold>a<i>b</bold>c</i>" =
      .ok [⟨"", [.inherit]⟩, ⟨"a<i>b", [.bold]⟩, ⟨"c</i>", [.inherit]⟩] := by decide +kernel
  have hparse : parse "<bold>a<i>b</bold>c</i>" =
      .ok (Segment.ofLeaves [⟨"", [.inherit]⟩, ⟨"a<i>b", [.bold]⟩, ⟨"c</i>", [.inherit]⟩]) := by
    rw [parse, hleaves]
    rfl
  have hmem : (⟨"a<i>b", [.bold]⟩ : Leaf) ∈ (Segment.ofLeaves
      [⟨"", [.inherit]⟩, ⟨"a<i>b", [.bold]⟩, ⟨"c</i>", [.inherit]⟩]).leaves := by decide
  have hclosed : HasClosedTag "<bold>a<i>b</bold>c</i>".toList :=
    hasClosedTag_iff.mpr ⟨0, 2, by decide +kernel⟩
  exact ⟨_, hparse, hmem, leaf_texts_parse_as_they_are.1 _ _ hparse _ hmem, hclosed,
    (leaf_texts_parse_as_they_are.2 _).2 hclosed⟩

end ExamVariants.Markup
