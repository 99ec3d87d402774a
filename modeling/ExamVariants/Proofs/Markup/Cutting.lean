import ExamVariants.Proofs.Markup.Occurrence
import ExamVariants.Proofs.Markup.Selection

namespace ExamVariants.Markup

/-- The style that a pair names by its opening tag. -/
def styleOf? (ts : List Tag) (p : Nat × Nat) : Option Style := Style.ofName? (tagOf ts p.1).name

def tagged (ks : List (Nat × Nat)) (i : Nat) : Bool := ks.any fun p => p.1 == i || p.2 == i

/-- The tags of some pairs, in order, among those from `first` up to `last`. -/
def keptTags (ks : List (Nat × Nat)) (first last : Nat) : List Nat :=
  (List.range' first (last - first)).filter (tagged ks)

/-- The styles that hold right after a tag: those of the pairs around this place, innermost
first. -/
def stylesAfter (ts : List Tag) (ks : List (Nat × Nat)) (i : Nat) : List Style :=
  (ks.filter fun p => p.1 ≤ i && i < p.2).reverse.filterMap (styleOf? ts)

def piece (cs : List Char) (start stop : Nat) (styles : List Style) : Leaf where
  text := String.ofList (slice start stop cs)
  styles := if styles.isEmpty then [.inherit] else styles

/-- The pieces from byte `start` to byte `stop` between the tags at some indices, under the styles
that hold at the start and after each tag. -/
def cut (cs : List Char) (ts : List Tag) (after : Nat → List Style) (stop : Nat) :
    Nat → List Style → List Nat → List Leaf
  | start, styles, [] => [piece cs start stop styles]
  | start, styles, i :: is =>
    piece cs start (tagOf ts i).start styles :: cut cs ts after stop (tagOf ts i).stop (after i) is

def leavesBetween (cs : List Char) (ts : List Tag) (ks : List (Nat × Nat)) : List Leaf :=
  cut cs ts (stylesAfter ts ks) (byteSize cs) 0 [] (keptTags ks 0 ts.length)

variable {cs : List Char} {ts : List Tag}

theorem cut_append_cons (after : Nat → List Style) (stop start : Nat) (styles : List Style)
    (is : List Nat) (i : Nat) (js : List Nat) :
    cut cs ts after stop start styles (is ++ i :: js) =
      cut cs ts after (tagOf ts i).start start styles is ++
        cut cs ts after stop (tagOf ts i).stop (after i) js := by
  induction is generalizing start styles with
  | nil => rfl
  | cons j is ih => rw [List.cons_append, cut, ih, cut, List.cons_append]

theorem cut_congr {after after' : Nat → List Style} {is : List Nat}
    (h : ∀ i ∈ is, after i = after' i) (stop start : Nat) (styles : List Style) :
    cut cs ts after stop start styles is = cut cs ts after' stop start styles is := by
  induction is generalizing start styles with
  | nil => rfl
  | cons i is ih =>
    rw [cut, cut, ih fun j hj => h j (List.mem_cons_of_mem i hj), h i List.mem_cons_self]

theorem length_cut (after : Nat → List Style) (stop start : Nat) (styles : List Style)
    (is : List Nat) : (cut cs ts after stop start styles is).length = is.length + 1 := by
  induction is generalizing start styles with
  | nil => rfl
  | cons i is ih => rw [cut, List.length_cons, ih, List.length_cons]

theorem mem_keptTags {ks : List (Nat × Nat)} {first last i : Nat} (h : i ∈ keptTags ks first last) :
    first ≤ i ∧ i < last := by
  have := List.mem_range'_1.mp (List.mem_filter.mp h).1
  omega

theorem keptTags_pairwise (ks : List (Nat × Nat)) (first last : Nat) :
    (keptTags ks first last).Pairwise (· < ·) :=
  List.Pairwise.filter _ (List.pairwise_lt_range' 1 Nat.one_pos)

theorem tagged_eq_true_iff {ks : List (Nat × Nat)} {i : Nat} :
    tagged ks i = true ↔ ∃ p ∈ ks, p.1 = i ∨ p.2 = i := by
  simp [tagged]

/-- The tags of a span are those of its first pair and those of the spans inside and after it. -/
theorem tagged_keptIn_iff {first last o c : Nat}
    (h : (pairsIn ts first last).head? = some (o, c)) (i : Nat) :
    tagged (keptIn ts first last) i = true ↔ i = o ∨ i = c ∨
      tagged (keptIn ts (o + 1) c) i = true ∨ tagged (keptIn ts (c + 1) last) i = true := by
  rw [keptIn_eq_cons h, tagged, tagged, tagged, List.any_cons, List.any_append]
  simp only [Bool.or_eq_true, beq_iff_eq, eq_comm (a := o), eq_comm (a := c), or_assoc]

theorem of_tagged_keptIn {first last i : Nat} (h : tagged (keptIn ts first last) i = true) :
    first ≤ i ∧ i < last := by
  obtain ⟨p, hp, hi⟩ := tagged_eq_true_iff.mp h
  have := mem_keptIn hp
  omega

@[simp] theorem keptTags_nil (first last : Nat) : keptTags [] first last = [] :=
  List.filter_eq_nil_iff.mpr fun _ _ => Bool.false_ne_true

theorem keptTags_eq_nil {first last : Nat} (h : (pairsIn ts first last).head? = none) :
    keptTags (keptIn ts first last) first last = [] := by
  rw [keptIn_eq_nil h, keptTags_nil]

theorem keptTags_eq_cons {first last o c : Nat} (h : (pairsIn ts first last).head? = some (o, c)) :
    keptTags (keptIn ts first last) first last =
      o :: (keptTags (keptIn ts (o + 1) c) (o + 1) c ++
        c :: keptTags (keptIn ts (c + 1) last) (c + 1) last) := by
  obtain ⟨hfirst, hlt, hlast, -⟩ := of_head?_pairsIn h
  have htagged := tagged_keptIn_iff h
  -- The span splits at `o` and `c`; in each part only its own pairs can mark a tag.
  have hbefore : ∀ i ∈ List.range' first (o - first), ¬ tagged (keptIn ts first last) i = true := by
    intro i hi htag
    have := List.mem_range'_1.mp hi
    rcases (htagged i).mp htag with rfl | rfl | htag | htag
    · omega
    · omega
    · have := of_tagged_keptIn htag
      omega
    · have := of_tagged_keptIn htag
      omega
  have hinside : ∀ i ∈ List.range' (o + 1) (c - (o + 1)),
      tagged (keptIn ts first last) i = tagged (keptIn ts (o + 1) c) i := by
    intro i hi
    have := List.mem_range'_1.mp hi
    rw [Bool.eq_iff_iff, htagged i]
    refine ⟨fun htag => ?_, fun htag => Or.inr (Or.inr (Or.inl htag))⟩
    rcases htag with rfl | rfl | htag | htag
    · omega
    · omega
    · exact htag
    · have := of_tagged_keptIn htag
      omega
  have hafter : ∀ i ∈ List.range' (c + 1) (last - (c + 1)),
      tagged (keptIn ts first last) i = tagged (keptIn ts (c + 1) last) i := by
    intro i hi
    have := List.mem_range'_1.mp hi
    rw [Bool.eq_iff_iff, htagged i]
    refine ⟨fun htag => ?_, fun htag => Or.inr (Or.inr (Or.inr htag))⟩
    rcases htag with rfl | rfl | htag | htag
    · omega
    · omega
    · have := of_tagged_keptIn htag
      omega
    · exact htag
  rw [keptTags, range'_eq_append_cons hfirst (Nat.lt_trans hlt hlast),
    range'_eq_append_cons hlt hlast, List.filter_append, List.filter_eq_nil_iff.mpr hbefore,
    List.nil_append, List.filter_cons_of_pos ((htagged o).mpr (Or.inl rfl)), List.filter_append,
    List.filter_cons_of_pos ((htagged c).mpr (Or.inr (Or.inl rfl))), List.filter_congr hinside,
    List.filter_congr hafter, keptTags, keptTags]

theorem length_keptTags (ts : List Tag) (first last : Nat) :
    (keptTags (keptIn ts first last) first last).length = 2 * (keptIn ts first last).length := by
  induction first, last using span_induction ts with
  | plain first last h => rw [keptTags_eq_nil h, keptIn_eq_nil h]; rfl
  | split first last o c h inside after =>
    rw [keptTags_eq_cons h, keptIn_eq_cons h]
    simp only [List.length_cons, List.length_append]
    omega

theorem two_mul_length_keptIn_le (ts : List Tag) :
    2 * (keptIn ts 0 ts.length).length ≤ ts.length := by
  rw [← length_keptTags]
  apply (List.length_filter_le _ _).trans
  rw [List.length_range', Nat.sub_zero]

theorem stylesAfter_append (ks ks' : List (Nat × Nat)) (i : Nat) :
    stylesAfter ts (ks ++ ks') i = stylesAfter ts ks' i ++ stylesAfter ts ks i := by
  simp [stylesAfter]

theorem stylesAfter_eq_nil {ks : List (Nat × Nat)} {i : Nat} (h : ∀ p ∈ ks, i < p.1 ∨ p.2 ≤ i) :
    stylesAfter ts ks i = [] := by
  have hnone : (ks.filter fun p => p.1 ≤ i && i < p.2) = [] := by
    apply List.filter_eq_nil_iff.mpr
    intro p hp
    have := h p hp
    simp
    omega
  rw [stylesAfter, hnone]
  rfl

theorem stylesAfter_keptIn_eq_nil {first last i : Nat} (h : i < first ∨ last ≤ i) :
    stylesAfter ts (keptIn ts first last) i = [] := by
  apply stylesAfter_eq_nil
  intro p hp
  have := mem_keptIn hp
  omega

theorem stylesAfter_eq_cons {first last o c : Nat} (h : (pairsIn ts first last).head? = some (o, c))
    (i : Nat) : stylesAfter ts (keptIn ts first last) i = stylesAfter ts (keptIn ts (c + 1) last) i ++
      (stylesAfter ts (keptIn ts (o + 1) c) i ++ stylesAfter ts [(o, c)] i) := by
  rw [keptIn_eq_cons h, ← List.singleton_append, stylesAfter_append, stylesAfter_append,
    List.append_assoc]

/-- Inside the first pair of a span, its style encloses the others. -/
theorem stylesAfter_inside {first last o c i : Nat} {style : Style}
    (h : (pairsIn ts first last).head? = some (o, c)) (hstyle : styleOf? ts (o, c) = some style)
    (hoi : o ≤ i) (hic : i < c) :
    stylesAfter ts (keptIn ts first last) i = stylesAfter ts (keptIn ts (o + 1) c) i ++ [style] := by
  have hpair : stylesAfter ts [(o, c)] i = [style] := by simp [stylesAfter, hoi, hic, hstyle]
  rw [stylesAfter_eq_cons h, hpair, stylesAfter_keptIn_eq_nil (Or.inl (Nat.lt_succ_of_lt hic)),
    List.nil_append]

/-- After the first pair of a span, only the pairs after it give styles. -/
theorem stylesAfter_after {first last o c i : Nat} (h : (pairsIn ts first last).head? = some (o, c))
    (hci : c ≤ i) :
    stylesAfter ts (keptIn ts first last) i = stylesAfter ts (keptIn ts (c + 1) last) i := by
  have hpair : stylesAfter ts [(o, c)] i = [] := by
    apply stylesAfter_eq_nil
    intro p hp
    obtain rfl := List.mem_singleton.mp hp
    exact Or.inr hci
  rw [stylesAfter_eq_cons h, hpair, stylesAfter_keptIn_eq_nil (Or.inr hci), List.append_nil,
    List.append_nil]

/-- The leaves of a span under the styles of the tags around it. -/
def spanLeaves (cs : List Char) (ts : List Tag) (enclosing : List Style)
    (first last start stop : Nat) : List Leaf :=
  cut cs ts (fun i => stylesAfter ts (keptIn ts first last) i ++ enclosing) stop start enclosing
    (keptTags (keptIn ts first last) first last)

theorem spanLeaves_of_plain {first last : Nat} (h : (pairsIn ts first last).head? = none)
    (enclosing : List Style) (start stop : Nat) :
    spanLeaves cs ts enclosing first last start stop = [piece cs start stop enclosing] := by
  rw [spanLeaves, keptTags_eq_nil h, cut]

theorem spanLeaves_eq_cons {first last o c : Nat} {style : Style}
    (h : (pairsIn ts first last).head? = some (o, c)) (hstyle : styleOf? ts (o, c) = some style)
    (enclosing : List Style) (start stop : Nat) :
    spanLeaves cs ts enclosing first last start stop =
      piece cs start (tagOf ts o).start enclosing ::
        (spanLeaves cs ts (style :: enclosing) (o + 1) c (tagOf ts o).stop (tagOf ts c).start ++
          spanLeaves cs ts enclosing (c + 1) last (tagOf ts c).stop stop) := by
  obtain ⟨-, hlt, -, -⟩ := of_head?_pairsIn h
  -- The cut runs over the tags before the pair, the pair itself, those inside and those behind.
  have hopen : stylesAfter ts (keptIn ts first last) o ++ enclosing = style :: enclosing := by
    rw [stylesAfter_inside h hstyle (Nat.le_refl o) hlt,
      stylesAfter_keptIn_eq_nil (Or.inl (Nat.lt_succ_self o)), List.nil_append,
      List.singleton_append]
  have hclose : stylesAfter ts (keptIn ts first last) c ++ enclosing = enclosing := by
    rw [stylesAfter_after h (Nat.le_refl c),
      stylesAfter_keptIn_eq_nil (Or.inl (Nat.lt_succ_self c)), List.nil_append]
  have hinside : ∀ i ∈ keptTags (keptIn ts (o + 1) c) (o + 1) c,
      stylesAfter ts (keptIn ts first last) i ++ enclosing =
        stylesAfter ts (keptIn ts (o + 1) c) i ++ style :: enclosing := by
    intro i hi
    obtain ⟨hoi, hic⟩ := mem_keptTags hi
    rw [stylesAfter_inside h hstyle (Nat.le_of_lt hoi) hic, List.append_assoc,
      List.singleton_append]
  have hafter : ∀ i ∈ keptTags (keptIn ts (c + 1) last) (c + 1) last,
      stylesAfter ts (keptIn ts first last) i ++ enclosing =
        stylesAfter ts (keptIn ts (c + 1) last) i ++ enclosing := by
    intro i hi
    rw [stylesAfter_after h (Nat.le_of_lt (mem_keptTags hi).1)]
  rw [spanLeaves, keptTags_eq_cons h, cut, cut_append_cons, hopen, hclose, cut_congr hinside,
    cut_congr hafter, ← spanLeaves, ← spanLeaves]

theorem leavesBetween_keptPairs (cs : List Char) (ts : List Tag) :
    leavesBetween cs ts (keptPairs ts) = spanLeaves cs ts [] 0 ts.length 0 (byteSize cs) := by
  simp [leavesBetween, spanLeaves, keptPairs_eq_keptIn]

/-- Leaves and tags in turn, as they are written. -/
def weave : List Leaf → List Tag → List Char
  | l :: ls, t :: ts => l.text.toList ++ (t.spelling ++ weave ls ts)
  | ls, _ => ls.flatMap fun l => l.text.toList

theorem occurs_tagOf {cs : List Char} {i : Nat} (hi : i < (tags cs).length) :
    (tagOf (tags cs) i).Occurs cs := by
  apply mem_tags_iff.mp
  simp [tagOf, hi]

theorem stop_le_start_tagOf {cs : List Char} {i j : Nat} (hij : i < j)
    (hj : j < (tags cs).length) : (tagOf (tags cs) i).stop ≤ (tagOf (tags cs) j).start := by
  have hi := Nat.lt_trans hij hj
  have hord := List.pairwise_iff_getElem.mp (tags_pairwise cs) i j hi hj hij
  simpa [tagOf, hi, hj] using hord

theorem Tag.Occurs.stop_le_byteSize {cs : List Char} {t : Tag} (h : t.Occurs cs) :
    t.stop ≤ byteSize cs := by
  obtain ⟨-, before, after, hcs, -, hstop⟩ := h
  rw [hcs, byteSize_append, ← hstop]
  exact Nat.le_add_right _ _

theorem weave_cut {cs : List Char} {after : Nat → List Style} {is : List Nat}
    (his : is.Pairwise (· < ·)) (hlt : ∀ i ∈ is, i < (tags cs).length) {start : Nat}
    (hstart : Boundary cs start) (hbefore : ∀ i ∈ is, start ≤ (tagOf (tags cs) i).start)
    (hsize : start ≤ byteSize cs) (styles : List Style) :
    weave (cut cs (tags cs) after (byteSize cs) start styles is) (is.map (tagOf (tags cs))) =
      slice start (byteSize cs) cs := by
  induction is generalizing start styles with
  | nil => simp [cut, weave, piece]
  | cons i is ih =>
    obtain ⟨hi, his⟩ := List.pairwise_cons.mp his
    have hocc := occurs_tagOf (hlt i List.mem_cons_self)
    have hlt' : ∀ j ∈ is, j < (tags cs).length := fun j hj => hlt j (List.mem_cons_of_mem i hj)
    have hafter : ∀ j ∈ is, (tagOf (tags cs) i).stop ≤ (tagOf (tags cs) j).start :=
      fun j hj => stop_le_start_tagOf (hi j hj) (hlt' j hj)
    have hrest := ih his hlt' hocc.boundary_stop hafter hocc.stop_le_byteSize (after i)
    have htag := Nat.le_of_lt hocc.start_lt_stop
    have hend := boundary_byteSize cs
    -- The piece before the tag, the tag and the rest are neighbouring slices.
    rw [cut, List.map_cons, weave, hrest, ← hocc.slice_eq_spelling,
      slice_append hocc.boundary_start hocc.boundary_stop hend htag hocc.stop_le_byteSize, piece,
      String.toList_ofList, slice_append hstart hocc.boundary_start hend
        (hbefore i List.mem_cons_self) (Nat.le_trans htag hocc.stop_le_byteSize)]

theorem weave_leavesBetween (cs : List Char) (ks : List (Nat × Nat)) :
    weave (leavesBetween cs (tags cs) ks)
      ((keptTags ks 0 (tags cs).length).map (tagOf (tags cs))) = cs := by
  rw [leavesBetween, weave_cut (keptTags_pairwise ks 0 (tags cs).length)
    (fun i hi => (mem_keptTags hi).2) (boundary_zero cs) (fun _ _ => Nat.zero_le _)
    (Nat.zero_le _), slice_zero_byteSize]

end ExamVariants.Markup
