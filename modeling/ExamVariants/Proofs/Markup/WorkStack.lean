import ExamVariants.Proofs.Markup.LeafText
import ExamVariants.Proofs.Markup.Scanner
import Mathlib.Data.List.Perm.Subperm

namespace ExamVariants.Markup

variable {cs : List Char}

namespace Source

/-- The first of some tags that has its partner before `last`; `none` on the outside stands for a tag
that is out of range. -/
def findPair? (src : Source) (last : Nat) : List Nat → Option (Option (Nat × Nat))
  | [] => some none
  | o :: os =>
    match src.partners[o]? with
    | some (some c) => if c < last then some (some (o, c)) else src.findPair? last os
    | some none => src.findPair? last os
    | none => none

/-- A step; `none` stands for an index out of range or an invalid slice. -/
def step? (src : Source) (st : State) : Option (Except UnknownStyle State) :=
  match st.work with
  | [] => some (.ok st)
  | .leave :: work => some (.ok { st with work, enclosing := st.enclosing.tail })
  | .split span :: work => do
    let styles := if st.enclosing.isEmpty then [.inherit] else st.enclosing
    match ← src.findPair? span.endTag (List.range' span.firstTag (span.endTag - span.firstTag)) with
    | none =>
      let text ← slice? span.start span.stop src.chars
      some (.ok { st with work, leaves := ⟨String.ofList text, styles⟩ :: st.leaves })
    | some (o, c) =>
      let opening ← src.tags[o]?
      let closing ← src.tags[c]?
      match Style.ofName? opening.name with
      | none => some (.error ⟨opening.name, opening.start⟩)
      | some style =>
        let text ← slice? span.start opening.start src.chars
        some (.ok
          { work := .split ⟨o + 1, c, opening.stop, closing.start⟩ :: .leave ::
              .split ⟨c + 1, span.endTag, closing.stop, span.stop⟩ :: work
            enclosing := style :: st.enclosing
            leaves := ⟨String.ofList text, styles⟩ :: st.leaves })

/-- A state of the loop, with the number of steps that lead to it. -/
inductive Reaches (src : Source) : Nat → State → Prop
  | start : Reaches src 0 src.start
  | next {n : Nat} {st st' : State} (h : Reaches src n st) (hwork : st.work ≠ [])
      (hstep : src.step st = .ok st') : Reaches src (n + 1) st'

end Source

/-- The spans that are still to be split, in the order in which their turn comes. -/
def spans : List Work → List Span
  | [] => []
  | .split s :: work => s :: spans work
  | .leave :: work => spans work

/-- Pending spans have the tags between their bytes and lie one behind the other, and each tag that is
still to be left has its style. -/
structure State.Sound (cs : List Char) (st : State) : Prop where
  fits : ∀ s ∈ spans st.work, s.Fits cs
  endTag_le : ∀ s ∈ spans st.work, s.endTag ≤ (tags cs).length
  apart : (spans st.work).Pairwise fun s s' => s.stop ≤ s'.start ∧ s.endTag ≤ s'.firstTag
  height : st.work.count .leave = st.enclosing.length

def stepsLeft (ts : List Tag) : List Work → Nat
  | [] => 0
  | .split s :: work => 1 + 3 * (keptIn ts s.firstTag s.endTag).length + stepsLeft ts work
  | .leave :: work => 1 + stepsLeft ts work

/-- What a step does: it leaves a tag, makes a leaf of a span without a pair, or splits a span. -/
theorem step_eq_ok_cases {st st' : State} (hwork : st.work ≠ [])
    (hstep : (Source.ofChars cs).step st = .ok st') :
    (∃ work, st.work = .leave :: work ∧ st' = ⟨work, st.enclosing.tail, st.leaves⟩) ∨
    (∃ s work, st.work = .split s :: work ∧
      (pairsIn (tags cs) s.firstTag s.endTag).head? = none ∧
      st' = ⟨work, st.enclosing, piece cs s.start s.stop st.enclosing :: st.leaves⟩) ∨
    ∃ s work o c style, st.work = .split s :: work ∧
      (pairsIn (tags cs) s.firstTag s.endTag).head? = some (o, c) ∧
      st' = ⟨.split ⟨o + 1, c, (tagOf (tags cs) o).stop, (tagOf (tags cs) c).start⟩ :: .leave ::
          .split ⟨c + 1, s.endTag, (tagOf (tags cs) c).stop, s.stop⟩ :: work,
        style :: st.enclosing,
        piece cs s.start (tagOf (tags cs) o).start st.enclosing :: st.leaves⟩ := by
  obtain ⟨work, enclosing, done⟩ := st
  match work with
  | [] => exact absurd rfl hwork
  | .leave :: work => exact .inl ⟨work, rfl, (Except.ok.inj hstep).symm⟩
  | .split ⟨first, last, start, stop⟩ :: work =>
    cases hhead : (pairsIn (tags cs) first last).head? with
    | none =>
      rw [step_of_plain hhead] at hstep
      exact .inr (.inl ⟨_, work, rfl, hhead, (Except.ok.inj hstep).symm⟩)
    | some p =>
      obtain ⟨o, c⟩ := p
      cases hstyle : styleOf? (tags cs) (o, c) with
      | none =>
        rw [step_of_unknown hhead hstyle] at hstep
        cases hstep
      | some style =>
        rw [step_of_pair hhead hstyle] at hstep
        exact .inr (.inr ⟨_, work, o, c, style, rfl, hhead, (Except.ok.inj hstep).symm⟩)

namespace State.Sound

variable {w : Work} {work : List Work} {enclosing enclosing' : List Style} {done done' : List Leaf}

theorem start (cs : List Char) : (Source.ofChars cs).start.Sound cs := by
  rw [start_ofChars]
  refine ⟨?_, ?_, List.pairwise_singleton _ _, rfl⟩
  · exact List.forall_mem_singleton.mpr (Span.Fits.whole cs)
  · exact List.forall_mem_singleton.mpr (Nat.le_refl _)

theorem pop (h : Sound cs ⟨w :: work, enclosing, done⟩)
    (hheight : work.count .leave = enclosing'.length) : Sound cs ⟨work, enclosing', done'⟩ := by
  have hspans : (spans work).Sublist (spans (w :: work)) := by
    cases w with
    | split s => exact List.sublist_cons_self s _
    | leave => exact List.Sublist.refl _
  exact ⟨fun s hs => h.fits s (hspans.subset hs), fun s hs => h.endTag_le s (hspans.subset hs),
    h.apart.sublist hspans, hheight⟩

theorem split {s : Span} {o c : Nat} {style : Style}
    (h : Sound cs ⟨.split s :: work, enclosing, done⟩) (hfirst : s.firstTag ≤ o) (hoc : o < c)
    (hlast : c < s.endTag) :
    Sound cs ⟨.split ⟨o + 1, c, (tagOf (tags cs) o).stop, (tagOf (tags cs) c).start⟩ :: .leave ::
        .split ⟨c + 1, s.endTag, (tagOf (tags cs) c).stop, s.stop⟩ :: work,
      style :: enclosing, done'⟩ := by
  obtain ⟨hfits, hfitsRest⟩ := List.forall_mem_cons.mp h.fits
  obtain ⟨hend, hendRest⟩ := List.forall_mem_cons.mp h.endTag_le
  obtain ⟨hbefore, hapart⟩ := List.pairwise_cons.mp h.apart
  have hc : c < (tags cs).length := Nat.lt_of_lt_of_le hlast hend
  have hbehind := hfits.behind (Nat.le_trans hfirst (Nat.le_of_lt hoc)) hlast hc
  have hclose := start_lt_stop_tagOf hc
  have hstop := hbehind.start_le_stop
  -- The invariant part by part: the spans fit, they end in range, they lie apart, and there is a
  -- style for each tag to be left.
  refine ⟨?_, ?_, ?_, ?_⟩
  · exact List.forall_mem_cons.mpr ⟨Span.Fits.inside hoc hc,
      List.forall_mem_cons.mpr ⟨hbehind, hfitsRest⟩⟩
  · exact List.forall_mem_cons.mpr ⟨Nat.le_of_lt hc, List.forall_mem_cons.mpr ⟨hend, hendRest⟩⟩
  · refine List.pairwise_cons.mpr ⟨List.forall_mem_cons.mpr ⟨?_, fun s' hs' => ?_⟩,
      List.pairwise_cons.mpr ⟨hbefore, hapart⟩⟩
    · dsimp only
      omega
    · have hrest := hbefore s' hs'
      dsimp only at hstop ⊢
      omega
  · have hheight := h.height
    simpa using hheight

/-- A step preserves the invariant, and a step less is left. -/
theorem step {st st' : State} (h : st.Sound cs) (hwork : st.work ≠ [])
    (hstep : (Source.ofChars cs).step st = .ok st') :
    st'.Sound cs ∧ stepsLeft (tags cs) st.work = stepsLeft (tags cs) st'.work + 1 := by
  obtain ⟨pending, enclosing, done⟩ := st
  obtain ⟨work, rfl, rfl⟩ | ⟨s, work, rfl, hhead, rfl⟩ | ⟨s, work, o, c, style, rfl, hhead, rfl⟩ :=
    step_eq_ok_cases hwork hstep
  · have hheight : work.count .leave + 1 = enclosing.length := by simpa using h.height
    have htail : work.count .leave = enclosing.tail.length := by
      rw [List.length_tail]
      omega
    exact ⟨h.pop htail, Nat.add_comm 1 _⟩
  · refine ⟨h.pop ?_, ?_⟩
    · simpa using h.height
    · simp only [stepsLeft, keptIn_eq_nil hhead, List.length_nil]
      omega
  · obtain ⟨hfirst, hoc, hlast, -⟩ := of_head?_pairsIn hhead
    refine ⟨h.split hfirst hoc hlast, ?_⟩
    rw [stepsLeft, keptIn_eq_cons hhead, List.length_cons, List.length_append]
    simp only [stepsLeft]
    omega

end State.Sound

theorem findPair?_eq {src : Source} {last : Nat} {os : List Nat}
    (h : ∀ o ∈ os, o < src.partners.size) :
    src.findPair? last os = some (os.findSome? fun o =>
      match src.partners.getD o none with
      | some c => if c < last then some (o, c) else none
      | none => none) := by
  induction os with
  | nil => rfl
  | cons o os ih =>
    obtain ⟨ho, hos⟩ := List.forall_mem_cons.mp h
    have hget : src.partners[o]? = some (src.partners.getD o none) := by simp [ho]
    rw [Source.findPair?, hget, List.findSome?_cons, ih hos]
    cases src.partners.getD o none with
    | none => rfl
    | some c => by_cases hc : c < last <;> simp [hc]

theorem findPair?_ofChars {s : Span} (h : s.endTag ≤ (tags cs).length) :
    (Source.ofChars cs).findPair? s.endTag (List.range' s.firstTag (s.endTag - s.firstTag)) =
      some ((Source.ofChars cs).firstPair? s) := by
  refine findPair?_eq fun o ho => ?_
  have hrange := List.mem_range'_1.mp ho
  have hsize : (Source.ofChars cs).partners.size = (tags cs).length := size_partners (tags cs)
  omega

theorem getElem?_tags_ofChars {i : Nat} (hi : i < (tags cs).length) :
    (Source.ofChars cs).tags[i]? = some (tagOf (tags cs) i) := by
  simp [Source.ofChars, tagOf, hi]

theorem Span.Fits.slice?_eq {first last start stop : Nat} (h : Fits cs ⟨first, last, start, stop⟩) :
    slice? start stop (Source.ofChars cs).chars =
      some (slice start stop (Source.ofChars cs).chars) :=
  slice?_of_boundary h.boundary_start h.boundary_stop h.start_le_stop

theorem step?_eq {st : State} (h : st.Sound cs) :
    (Source.ofChars cs).step? st = some ((Source.ofChars cs).step st) := by
  obtain ⟨pending, enclosing, done⟩ := st
  match pending, h with
  | [], _ => rfl
  | .leave :: work, _ => rfl
  | .split ⟨first, last, start, stop⟩ :: work, h =>
    obtain ⟨hfits, -⟩ := List.forall_mem_cons.mp h.fits
    obtain ⟨hend, -⟩ := List.forall_mem_cons.mp h.endTag_le
    simp only [Source.step?, Source.step, findPair?_ofChars hend, Option.bind_eq_bind,
      Option.bind_some]
    cases hfirst : (Source.ofChars cs).firstPair? ⟨first, last, start, stop⟩ with
    | none =>
      simp only [hfits.slice?_eq]
      rfl
    | some p =>
      obtain ⟨o, c⟩ := p
      rw [firstPair?_ofChars] at hfirst
      obtain ⟨hfirst, hoc, hlast, -⟩ := of_head?_pairsIn hfirst
      have hc : c < (tags cs).length := Nat.lt_of_lt_of_le hlast hend
      have ho := Nat.lt_trans hoc hc
      -- The span fits, so both tags are in range and so are the bytes in front of the pair.
      have hbefore := hfits.before hfirst (Nat.lt_trans hoc hlast) ho
      simp only [getElem?_tags_ofChars ho, getElem?_tags_ofChars hc, getD_tags_ofChars,
        Option.bind_some]
      cases Style.ofName? (tagOf (tags cs) o).name with
      | none => rfl
      | some style =>
        simp only [hbefore.slice?_eq]
        rfl

theorem length_keptIn_le_length_pairs (ts : List Tag) :
    (keptIn ts 0 ts.length).length ≤ (pairs ts).length := by
  have hnodup : (keptIn ts 0 ts.length).Nodup :=
    (keptIn_pairwise ts 0 ts.length).imp fun hlt heq => absurd (heq ▸ hlt.1) (Nat.lt_irrefl _)
  have hsubset : keptIn ts 0 ts.length ⊆ pairs ts := by
    intro p hp
    rw [pairs_eq_pairing]
    exact partner?_eq_some_iff.mp (mem_pairsIn_iff.mp ((select_sublist _).subset hp)).2.2
  exact (hnodup.subperm hsubset).length_le

/-- The invariant holds in every state that is reached, and the steps taken and the steps left are
always as many. -/
theorem sound_of_reaches {n : Nat} {st : State} (h : (Source.ofChars cs).Reaches n st) :
    st.Sound cs ∧ n + stepsLeft (tags cs) st.work =
      1 + 3 * (keptIn (tags cs) 0 (tags cs).length).length := by
  induction h with
  | start =>
    refine ⟨State.Sound.start cs, ?_⟩
    simp only [start_ofChars, stepsLeft]
    omega
  | next _ hwork hstep ih =>
    obtain ⟨hsound, hsteps⟩ := ih
    obtain ⟨hsound', hless⟩ := hsound.step hwork hstep
    exact ⟨hsound', by omega⟩

theorem stepsLeft_pos (ts : List Tag) {work : List Work} (h : work ≠ []) :
    0 < stepsLeft ts work := by
  match work, h with
  | .split _ :: _, _ =>
    rw [stepsLeft]
    omega
  | .leave :: _, _ =>
    rw [stepsLeft]
    omega

theorem exists_end_of_reaches {n : Nat} {st : State} (h : (Source.ofChars cs).Reaches n st) :
    ∃ m st', (Source.ofChars cs).Reaches m st' ∧
      (st'.work = [] ∨ st'.work ≠ [] ∧ ∃ e, (Source.ofChars cs).step st' = .error e) := by
  induction hleft : stepsLeft (tags cs) st.work generalizing n st with
  | zero =>
    by_cases hwork : st.work = []
    · exact ⟨n, st, h, .inl hwork⟩
    · have hpos := stepsLeft_pos (tags cs) hwork
      omega
  | succ left ih =>
    by_cases hwork : st.work = []
    · exact ⟨n, st, h, .inl hwork⟩
    · cases hstep : (Source.ofChars cs).step st with
      | error e => exact ⟨n, st, h, .inr ⟨hwork, e, hstep⟩⟩
      | ok st' =>
        have hless := ((sound_of_reaches h).1.step hwork hstep).2
        exact ih (.next h hwork hstep) (by omega)

theorem run_of_reaches {src : Source} {n : Nat} {st : State} (h : src.Reaches n st) (fuel : Nat) :
    src.run (n + fuel) src.start = src.run fuel st := by
  induction h generalizing fuel with
  | start => rw [Nat.zero_add]
  | @next n st st' _ hwork hstep ih =>
    obtain ⟨work, enclosing, done⟩ := st
    obtain ⟨w, work, rfl⟩ := List.exists_cons_of_ne_nil hwork
    rw [Nat.add_assoc, Nat.add_comm 1, ih, run_cons, hstep]
    rfl

theorem leaves_eq_run {raw : String} {n : Nat} {st : State}
    (h : (Source.ofChars raw.toList).Reaches n st) :
    ∃ fuel, (st.work ≠ [] → fuel ≠ 0) ∧
      leaves raw = (fun st => st.leaves.reverse) <$> (Source.ofChars raw.toList).run fuel st := by
  obtain ⟨-, hsteps⟩ := sound_of_reaches h
  have hpairs := two_mul_length_keptIn_le (tags raw.toList)
  have hmax := maxSteps_ofChars raw.toList
  refine ⟨(Source.ofChars raw.toList).maxSteps - n, fun hwork => ?_, ?_⟩
  · have hpos := stepsLeft_pos (tags raw.toList) hwork
    omega
  · rw [leaves, ← run_of_reaches h, Nat.add_sub_cancel' (by omega)]

theorem parse_of_work_eq_nil {raw : String} {n : Nat} {st : State}
    (h : (Source.ofChars raw.toList).Reaches n st) (hwork : st.work = []) :
    parse raw = .ok (Segment.ofLeaves st.leaves.reverse) := by
  obtain ⟨fuel, -, hleaves⟩ := leaves_eq_run h
  obtain ⟨work, enclosing, done⟩ := st
  obtain rfl : work = [] := hwork
  rw [parse, hleaves, run_nil]
  rfl

theorem parse_of_step_eq_error {raw : String} {n : Nat} {st : State} {e : UnknownStyle}
    (h : (Source.ofChars raw.toList).Reaches n st) (hwork : st.work ≠ [])
    (hstep : (Source.ofChars raw.toList).step st = .error e) : parse raw = .error e := by
  obtain ⟨fuel, hfuel, hleaves⟩ := leaves_eq_run h
  obtain ⟨fuel, rfl⟩ := Nat.exists_eq_succ_of_ne_zero (hfuel hwork)
  obtain ⟨work, enclosing, done⟩ := st
  obtain ⟨w, work, rfl⟩ := List.exists_cons_of_ne_nil hwork
  rw [parse, hleaves, run_cons, hstep]
  rfl

/-- Parsing finds everything that it reads and comes to its end. The scan for tags takes no invalid
slice, and a pair has its place in the array of partners. In every state that the loop reaches, the
invariant holds and the next step is the step with its accesses checked; with `k` pairs of tags there
are at most `1 + 3 * k` steps, and no style is left when the work is done. Each run ends with no work
left or at an unknown style, and the text parses into what it ends with. -/
theorem parse_safe_and_ends (raw : String) :
    (Scan.Finds raw.toList ⟨0, []⟩ (tags raw.toList) ∧
      ∀ p ∈ pairs (tags raw.toList), p.1 < (tags raw.toList).length) ∧
    (∀ n st, (Source.ofChars raw.toList).Reaches n st →
      st.Sound raw.toList ∧
      (Source.ofChars raw.toList).step? st = some ((Source.ofChars raw.toList).step st) ∧
      n ≤ 1 + 3 * (pairs (tags raw.toList)).length ∧
      (st.work ≠ [] → n < 1 + 3 * (pairs (tags raw.toList)).length) ∧
      (st.work = [] → st.enclosing = [])) ∧
    ∃ n st, (Source.ofChars raw.toList).Reaches n st ∧
      (st.work = [] ∧ parse raw = .ok (Segment.ofLeaves st.leaves.reverse) ∨
        st.work ≠ [] ∧ ∃ e, (Source.ofChars raw.toList).step st = .error e ∧
          parse raw = .error e) := by
  refine ⟨⟨Scan.finds_tags raw.toList, fun p hp => ?_⟩, fun n st h => ?_, ?_⟩
  · rw [pairs_eq_pairing] at hp
    have hpair := of_mem_pairing (o := p.1) (c := p.2) hp
    omega
  · obtain ⟨hsound, hsteps⟩ := sound_of_reaches h
    have hkept := length_keptIn_le_length_pairs (tags raw.toList)
    refine ⟨hsound, step?_eq hsound, by omega, fun hwork => ?_, fun hwork => ?_⟩
    · have hpos := stepsLeft_pos (tags raw.toList) hwork
      omega
    · have hheight := hsound.height
      rw [hwork, List.count_nil] at hheight
      exact List.length_eq_zero_iff.mp hheight.symm
  -- Each step leaves fewer steps, so from the start the loop comes to its end.
  · have hstart : (Source.ofChars raw.toList).Reaches 0 (Source.ofChars raw.toList).start := .start
    obtain ⟨n, st, h, hend⟩ := exists_end_of_reaches hstart
    refine ⟨n, st, h, ?_⟩
    rcases hend with hwork | ⟨hwork, e, hstep⟩
    · exact .inl ⟨hwork, parse_of_work_eq_nil h hwork⟩
    · exact .inr ⟨hwork, e, hstep, parse_of_step_eq_error h hwork hstep⟩

/-- A pair of tags between characters of two bytes: the work after the first step, and after all
four. -/
theorem parse_safe_and_ends_twoByteText :
    (0, 1) ∈ pairs (tags "é<bold>ü</bold>".toList) ∧
    0 < (tags "é<bold>ü</bold>".toList).length ∧
    (∃ st, (Source.ofChars "é<bold>ü</bold>".toList).Reaches 1 st ∧
      st.work = [.split ⟨1, 1, 8, 10⟩, .leave, .split ⟨2, 2, 17, 17⟩] ∧
      st.Sound "é<bold>ü</bold>".toList ∧
      1 < 1 + 3 * (pairs (tags "é<bold>ü</bold>".toList)).length) ∧
    ∃ st, (Source.ofChars "é<bold>ü</bold>".toList).Reaches 4 st ∧ st.work = [] ∧
      st.enclosing = [] ∧ 4 ≤ 1 + 3 * (pairs (tags "é<bold>ü</bold>".toList)).length := by
  have hpair : (0, 1) ∈ pairs (tags "é<bold>ü</bold>".toList) := by decide +kernel
  have hfirst : (Source.ofChars "é<bold>ü</bold>".toList).Reaches 1
      ⟨[.split ⟨1, 1, 8, 10⟩, .leave, .split ⟨2, 2, 17, 17⟩], [.bold], [⟨"é", [.inherit]⟩]⟩ :=
    .next .start (by decide +kernel) (by decide +kernel)
  have hinside : (Source.ofChars "é<bold>ü</bold>".toList).Reaches 2
      ⟨[.leave, .split ⟨2, 2, 17, 17⟩], [.bold], [⟨"ü", [.bold]⟩, ⟨"é", [.inherit]⟩]⟩ :=
    .next hfirst (by decide) (by decide +kernel)
  have hbehind : (Source.ofChars "é<bold>ü</bold>".toList).Reaches 3
      ⟨[.split ⟨2, 2, 17, 17⟩], [], [⟨"ü", [.bold]⟩, ⟨"é", [.inherit]⟩]⟩ :=
    .next hinside (by decide) (by decide +kernel)
  have hlast : (Source.ofChars "é<bold>ü</bold>".toList).Reaches 4
      ⟨[], [], [⟨"", [.inherit]⟩, ⟨"ü", [.bold]⟩, ⟨"é", [.inherit]⟩]⟩ :=
    .next hbehind (by decide) (by decide +kernel)
  obtain ⟨⟨-, hlt⟩, hsafe, -⟩ := parse_safe_and_ends "é<bold>ü</bold>"
  obtain ⟨hsound, -, -, hless, -⟩ := hsafe 1 _ hfirst
  obtain ⟨-, -, hle, -, hempty⟩ := hsafe 4 _ hlast
  exact ⟨hpair, hlt _ hpair, ⟨_, hfirst, rfl, hsound, hless (by decide)⟩,
    _, hlast, rfl, hempty rfl, hle⟩

end ExamVariants.Markup
