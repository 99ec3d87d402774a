import ExamVariants.Proofs.Markup.Cutting

namespace ExamVariants.Markup

def unknown (ts : List Tag) (p : Nat × Nat) : Bool := (styleOf? ts p).isNone

def unknownStyle (ts : List Tag) (p : Nat × Nat) : UnknownStyle :=
  ⟨(tagOf ts p.1).name, (tagOf ts p.1).start⟩

variable {cs : List Char}

theorem getD_tags_ofChars (i : Nat) : (Source.ofChars cs).tags.getD i default = tagOf (tags cs) i := by
  simp [Source.ofChars, tagOf, Array.getD_eq_getD_getElem?, List.getD_eq_getElem?_getD]

theorem firstPair?_ofChars (first last start stop : Nat) :
    (Source.ofChars cs).firstPair? ⟨first, last, start, stop⟩ = (pairsIn (tags cs) first last).head? := by
  rw [Source.firstPair?, pairsIn, List.head?_filterMap]
  congr 1
  funext o
  have hpartner : (Source.ofChars cs).partners.getD o none = partner? (tags cs) o := getD_partners _ o
  rw [hpartner, pairAt?]
  cases partner? (tags cs) o with
  | none => rfl
  | some c => by_cases hc : c < last <;> simp [Option.filter, hc]

variable {first last start stop : Nat} {work : List Work} {enclosing : List Style}
  {done : List Leaf}

theorem step_of_plain (h : (pairsIn (tags cs) first last).head? = none) :
    (Source.ofChars cs).step ⟨.split ⟨first, last, start, stop⟩ :: work, enclosing, done⟩ =
      .ok ⟨work, enclosing, piece cs start stop enclosing :: done⟩ := by
  rw [← firstPair?_ofChars first last start stop] at h
  simp only [Source.step, h]
  rfl

theorem step_of_unknown {o c : Nat} (h : (pairsIn (tags cs) first last).head? = some (o, c))
    (hstyle : styleOf? (tags cs) (o, c) = none) :
    (Source.ofChars cs).step ⟨.split ⟨first, last, start, stop⟩ :: work, enclosing, done⟩ =
      .error (unknownStyle (tags cs) (o, c)) := by
  rw [← firstPair?_ofChars first last start stop] at h
  rw [styleOf?] at hstyle
  simp only [Source.step, h, getD_tags_ofChars, hstyle, unknownStyle]

theorem step_of_pair {o c : Nat} {style : Style}
    (h : (pairsIn (tags cs) first last).head? = some (o, c))
    (hstyle : styleOf? (tags cs) (o, c) = some style) :
    (Source.ofChars cs).step ⟨.split ⟨first, last, start, stop⟩ :: work, enclosing, done⟩ =
      .ok ⟨.split ⟨o + 1, c, (tagOf (tags cs) o).stop, (tagOf (tags cs) c).start⟩ :: .leave ::
          .split ⟨c + 1, last, (tagOf (tags cs) c).stop, stop⟩ :: work,
        style :: enclosing,
        piece cs start (tagOf (tags cs) o).start enclosing :: done⟩ := by
  rw [← firstPair?_ofChars first last start stop] at h
  rw [styleOf?] at hstyle
  simp only [Source.step, h, getD_tags_ofChars, hstyle]
  rfl

theorem run_cons (src : Source) (fuel : Nat) (w : Work) :
    src.run (fuel + 1) ⟨w :: work, enclosing, done⟩ =
      src.step ⟨w :: work, enclosing, done⟩ >>= src.run fuel := by
  simp [Source.run]

theorem run_nil (src : Source) (fuel : Nat) :
    src.run fuel ⟨[], enclosing, done⟩ = .ok ⟨[], enclosing, done⟩ := by
  cases fuel <;> simp [Source.run]

theorem run_leave (src : Source) (fuel : Nat) (style : Style) :
    src.run (fuel + 1) ⟨.leave :: work, style :: enclosing, done⟩ =
      src.run fuel ⟨work, enclosing, done⟩ := by
  rw [run_cons]
  rfl

/-- A span is done after one step and three for each kept pair in it, whatever work lies below. -/
theorem run_split (first last start stop : Nat) (work : List Work) (enclosing : List Style)
    (done : List Leaf) (fuel : Nat) :
    (Source.ofChars cs).run (fuel + (1 + 3 * (keptIn (tags cs) first last).length))
        ⟨.split ⟨first, last, start, stop⟩ :: work, enclosing, done⟩ =
      match (keptIn (tags cs) first last).find? (unknown (tags cs)) with
      | some p => .error (unknownStyle (tags cs) p)
      | none => (Source.ofChars cs).run fuel ⟨work, enclosing,
          (spanLeaves cs (tags cs) enclosing first last start stop).reverse ++ done⟩ := by
  induction first, last using span_induction (tags cs)
    generalizing start stop work enclosing done fuel with
  | plain first last h =>
    rw [keptIn_eq_nil h, spanLeaves_of_plain h]
    simp only [List.length_nil, Nat.mul_zero, Nat.add_zero, List.find?_nil, List.reverse_singleton,
      List.singleton_append]
    rw [run_cons, step_of_plain h]
    rfl
  | split first last o c h inside after =>
    have hkept := keptIn_eq_cons h
    cases hstyle : styleOf? (tags cs) (o, c) with
    | none =>
      have hunknown : unknown (tags cs) (o, c) = true := by rw [unknown, hstyle]; rfl
      rw [hkept, List.find?_cons_of_pos hunknown, ← Nat.add_assoc, Nat.add_right_comm, run_cons,
        step_of_unknown h hstyle]
      rfl
    | some style =>
      have hknown : ¬ unknown (tags cs) (o, c) = true := by rw [unknown, hstyle]; simp
      -- One step splits the span, one leaves the pair; the rest belongs to the two halves.
      have hfuel : fuel + (1 + 3 * (keptIn (tags cs) first last).length) =
          fuel + (1 + 3 * (keptIn (tags cs) (c + 1) last).length) + 1 +
            (1 + 3 * (keptIn (tags cs) (o + 1) c).length) + 1 := by
        rw [hkept, List.length_cons, List.length_append]
        omega
      rw [hfuel, run_cons, step_of_pair h hstyle]
      change (Source.ofChars cs).run _ _ = _
      rw [inside, hkept, List.find?_cons_of_neg hknown, List.find?_append]
      cases (keptIn (tags cs) (o + 1) c).find? (unknown (tags cs)) with
      | some p => rfl
      | none =>
        rw [run_leave, after, Option.none_or, spanLeaves_eq_cons h hstyle]
        simp only [List.reverse_cons, List.reverse_append, List.append_assoc, List.singleton_append]

def kept (raw : String) : List (Nat × Nat) := keptPairs (tags raw.toList)

/-- The pieces of a text between the tags of its kept pairs. -/
def pieces (raw : String) : List Leaf := leavesBetween raw.toList (tags raw.toList) (kept raw)

theorem start_ofChars (cs : List Char) :
    (Source.ofChars cs).start = ⟨[.split ⟨0, (tags cs).length, 0, byteSize cs⟩], [], []⟩ := by
  simp [Source.start, Source.ofChars]

theorem maxSteps_ofChars (cs : List Char) :
    (Source.ofChars cs).maxSteps = 1 + 3 * (tags cs).length := by
  simp [Source.maxSteps, Source.ofChars]

theorem leaves_eq_pieces (raw : String) :
    leaves raw =
      match (kept raw).find? (unknown (tags raw.toList)) with
      | some p => .error (unknownStyle (tags raw.toList) p)
      | none => .ok (pieces raw) := by
  set ts := tags raw.toList with hts
  have hpairs := two_mul_length_keptIn_le ts
  -- Two tags a pair: the bound on the steps leaves fuel to spare.
  have hfuel : (Source.ofChars raw.toList).maxSteps =
      3 * (ts.length - (keptIn ts 0 ts.length).length) +
        (1 + 3 * (keptIn ts 0 ts.length).length) := by
    rw [maxSteps_ofChars, ← hts]
    omega
  have hkept : kept raw = keptIn ts 0 ts.length := keptPairs_eq_keptIn ts
  have hpieces : pieces raw = spanLeaves raw.toList ts [] 0 ts.length 0 (byteSize raw.toList) :=
    leavesBetween_keptPairs raw.toList ts
  rw [leaves, hfuel, start_ofChars, ← hts, run_split, hpieces, hkept]
  cases (keptIn ts 0 ts.length).find? (unknown ts) with
  | some p => rfl
  | none =>
    rw [run_nil, List.append_nil]
    simp only [Functor.map, Except.map, List.reverse_reverse, hts]

theorem kept_pairwise (raw : String) :
    (kept raw).Pairwise fun p q => p.1 < q.1 ∧ (q.2 < p.2 ∨ p.2 < q.1) := by
  rw [kept, keptPairs_eq_keptIn]
  exact keptIn_pairwise _ _ _

theorem length_pieces (raw : String) : (pieces raw).length = 2 * (kept raw).length + 1 := by
  rw [pieces, leavesBetween, length_cut, kept, keptPairs_eq_keptIn, length_keptTags]

theorem ofLeaves_of_length {ls : List Leaf} (h : ls.length ≠ 1) :
    Segment.ofLeaves ls = .compound (ls.map Segment.ofLeaf) := by
  cases ls with
  | nil => rfl
  | cons l ls =>
    cases ls with
    | nil => exact absurd rfl h
    | cons l' ls => rfl

/-- Without a kept pair the text is a single leaf; otherwise there are three leaves or more. -/
theorem ofLeaves_pieces (raw : String) :
    Segment.ofLeaves (pieces raw) =
      if kept raw = [] then .simple raw [.inherit]
      else .compound ((pieces raw).map Segment.ofLeaf) := by
  by_cases hkept : kept raw = []
  · rw [if_pos hkept, pieces, hkept]
    simp [leavesBetween, cut, piece, slice_zero_byteSize, Segment.ofLeaves, Segment.ofLeaf]
  · have hpos := List.length_pos_iff.mpr hkept
    rw [if_neg hkept]
    apply ofLeaves_of_length
    rw [length_pieces]
    omega

theorem parse_eq (raw : String) :
    parse raw =
      match (kept raw).find? (unknown (tags raw.toList)) with
      | some p => .error (unknownStyle (tags raw.toList) p)
      | none => .ok (Segment.ofLeaves (pieces raw)) := by
  rw [parse, leaves_eq_pieces]
  cases (kept raw).find? (unknown (tags raw.toList)) <;> rfl

/-- A text parses into the pieces between the tags of its kept pairs, unless one of these pairs
names no style. -/
theorem parse_eq_keptPairs (raw : String) :
    ((∀ t, t ∈ tags raw.toList ↔ t.Occurs raw.toList) ∧
        (tags raw.toList).Pairwise (·.stop ≤ ·.start)) ∧
      (kept raw).Pairwise (fun p q => p.1 < q.1 ∧ (q.2 < p.2 ∨ p.2 < q.1)) ∧
      ((∃ e, parse raw = .error e) ↔ ∃ p ∈ kept raw, unknown (tags raw.toList) p) ∧
      (∀ p, (kept raw).find? (unknown (tags raw.toList)) = some p →
        parse raw = .error
          ⟨(tagOf (tags raw.toList) p.1).name, (tagOf (tags raw.toList) p.1).start⟩) ∧
      ((kept raw).find? (unknown (tags raw.toList)) = none →
        parse raw = .ok (if kept raw = [] then .simple raw [.inherit]
          else .compound ((pieces raw).map Segment.ofLeaf)) ∧
        (pieces raw).length = 2 * (kept raw).length + 1 ∧
        weave (pieces raw) ((keptTags (kept raw) 0 (tags raw.toList).length).map
          (tagOf (tags raw.toList))) = raw.toList) := by
  refine ⟨⟨fun t => mem_tags_iff, tags_pairwise raw.toList⟩, kept_pairwise raw, ?_, ?_, ?_⟩
  · rw [← List.find?_isSome, parse_eq]
    cases (kept raw).find? (unknown (tags raw.toList)) with
    | some p => simp
    | none => simp
  · intro p hp
    rw [parse_eq, hp]
    rfl
  · intro hnone
    refine ⟨?_, length_pieces raw, weave_leavesBetween raw.toList (kept raw)⟩
    rw [parse_eq, hnone, ofLeaves_pieces]

end ExamVariants.Markup
