import ExamVariants.Proofs.Markup.Run

/-!
The work stack beside the recursive rule for the leaves of a span. By the rule, the leaves inside
the first pair get its style behind their own, or in the place of `inherit` alone. The stack tells
text outside every tag from text under `<inherit>`, and the rule does not; so the two differ where
an `<inherit>` stands inside another tag, and nowhere else.
-/

namespace ExamVariants.Markup

/-- Adds a style behind those of a leaf; it takes the place of `inherit` alone. -/
def addStyle (style : Style) (l : Leaf) : Leaf :=
  ⟨l.text, if l.styles = [.inherit] then [style] else l.styles ++ [style]⟩

/-- The leaves of a span by the rule: the plain text before the first pair, the leaves inside it with
its style added, and the leaves after it. -/
inductive Ruled (src : Source) : Span → List Leaf → Prop
  | plain {span : Span} (hpair : src.firstPair? span = none) :
      Ruled src span [src.leaf span.start span.stop []]
  | split {span : Span} {o c : Nat} {style : Style} {inner after : List Leaf}
      (hpair : src.firstPair? span = some (o, c))
      (hstyle : Style.ofName? (src.tags.getD o default).name = some style)
      (hinner : Ruled src
        ⟨o + 1, c, (src.tags.getD o default).stop, (src.tags.getD c default).start⟩ inner)
      (hafter : Ruled src ⟨c + 1, span.endTag, (src.tags.getD c default).stop, span.stop⟩ after) :
      Ruled src span (src.leaf span.start (src.tags.getD o default).start [] ::
        (inner.map (addStyle style) ++ after))

def Source.whole (src : Source) : Span := ⟨0, src.tags.size, 0, byteSize src.chars⟩

/-- The styles without the `inherit`s that stand before another style. -/
def settled : List Style → List Style
  | [] => [.inherit]
  | style :: styles => if style = .inherit then settled styles else style :: styles

def settle (l : Leaf) : Leaf := ⟨l.text, settled l.styles⟩

/-- Adds the styles of the tags around a leaf, from the innermost. -/
def addStyles (enclosing : List Style) (l : Leaf) : Leaf :=
  enclosing.foldl (fun l style => addStyle style l) l

theorem addStyle_settle (text : String) (styles : List Style) (style : Style) :
    addStyle style (settle ⟨text, styles⟩) = settle ⟨text, styles ++ [style]⟩ := by
  induction styles with
  | nil => by_cases hstyle : style = .inherit <;> simp [addStyle, settle, settled, hstyle]
  | cons first styles ih =>
    by_cases hfirst : first = .inherit
    · simpa [settle, settled, hfirst] using ih
    · simp [addStyle, settle, settled, hfirst]

theorem addStyles_settle (text : String) (styles enclosing : List Style) :
    addStyles enclosing (settle ⟨text, styles⟩) = settle ⟨text, styles ++ enclosing⟩ := by
  induction enclosing generalizing styles with
  | nil => rw [List.append_nil]; rfl
  | cons style enclosing ih =>
    have hrest := ih (styles ++ [style])
    rw [List.append_assoc, List.singleton_append, ← addStyle_settle] at hrest
    exact hrest

theorem length_settled_le (first : Style) (styles : List Style) :
    (settled (first :: styles)).length ≤ styles.length + 1 := by
  induction styles generalizing first with
  | nil => by_cases hfirst : first = .inherit <;> simp [settled, hfirst]
  | cons second styles ih =>
    by_cases hfirst : first = .inherit
    · have hrest := ih second
      rw [settled, if_pos hfirst, List.length_cons]
      omega
    · simp [settled, hfirst]

theorem settled_eq_self_iff (first : Style) (styles : List Style) :
    settled (first :: styles) = first :: styles ↔ (first = .inherit → styles = []) := by
  by_cases hfirst : first = .inherit
  · subst hfirst
    cases styles with
    | nil => simp [settled]
    | cons second styles =>
      have hlength := length_settled_le second styles
      have hne : settled (.inherit :: second :: styles) ≠ .inherit :: second :: styles := by
        intro heq
        have hlengths := congrArg List.length heq
        rw [settled, if_pos rfl, List.length_cons, List.length_cons] at hlengths
        omega
      simp [hne]
  · simp [settled, hfirst]

variable {cs : List Char}

theorem settle_piece (start stop : Nat) (enclosing : List Style) :
    settle (piece cs start stop enclosing) =
      addStyles enclosing ((Source.ofChars cs).leaf start stop []) := by
  have hplain : (Source.ofChars cs).leaf start stop [] =
      settle ⟨String.ofList (slice start stop cs), []⟩ := rfl
  rw [hplain, addStyles_settle, List.nil_append]
  cases enclosing with
  | nil => rfl
  | cons style enclosing => rfl

/-- With the styles around the span added, the leaves by the rule are those of the stack once these
are settled. -/
theorem Ruled.map_addStyles {span : Span} {rs : List Leaf} (h : Ruled (Source.ofChars cs) span rs)
    (enclosing : List Style) :
    rs.map (addStyles enclosing) = (spanLeaves cs (tags cs) enclosing span.firstTag span.endTag
      span.start span.stop).map settle := by
  -- The rule adds a style on the way out and the stack on the way in, so `enclosing` varies.
  induction h generalizing enclosing with
  | @plain span hpair =>
    have hhead := (firstPair?_ofChars span.firstTag span.endTag span.start span.stop).symm.trans hpair
    rw [spanLeaves_of_plain hhead, List.map_singleton, List.map_singleton, settle_piece]
  | @split span o c style inner after hpair hstyle hinner hafter ihInner ihAfter =>
    have hhead := (firstPair?_ofChars span.firstTag span.endTag span.start span.stop).symm.trans hpair
    rw [getD_tags_ofChars] at hstyle
    have hinner' : (inner.map (addStyle style)).map (addStyles enclosing) =
        inner.map (addStyles (style :: enclosing)) := List.map_map
    rw [List.map_cons, List.map_append, hinner', ihInner, ihAfter, spanLeaves_eq_cons hhead hstyle,
      List.map_cons, List.map_append, settle_piece]
    simp only [getD_tags_ofChars]

theorem exists_styleOf?_of_known {ts : List Tag} {first last o c : Nat}
    (h : (pairsIn ts first last).head? = some (o, c))
    (hknown : (keptIn ts first last).find? (unknown ts) = none) :
    ∃ style, styleOf? ts (o, c) = some style ∧ (keptIn ts (o + 1) c).find? (unknown ts) = none ∧
      (keptIn ts (c + 1) last).find? (unknown ts) = none := by
  rw [keptIn_eq_cons h, ← List.singleton_append, List.find?_append, Option.or_eq_none_iff,
    List.find?_append, Option.or_eq_none_iff] at hknown
  obtain ⟨hpair, hrest⟩ := hknown
  have hnamed : ¬ unknown ts (o, c) = true := List.find?_eq_none.mp hpair _ List.mem_cons_self
  cases hstyle : styleOf? ts (o, c) with
  | none => exact absurd (by rw [unknown, hstyle]; rfl) hnamed
  | some style => exact ⟨style, rfl, hrest⟩

theorem exists_ruled {first last : Nat}
    (h : (keptIn (tags cs) first last).find? (unknown (tags cs)) = none) (start stop : Nat) :
    ∃ rs, Ruled (Source.ofChars cs) ⟨first, last, start, stop⟩ rs := by
  induction first, last using span_induction (tags cs) generalizing start stop with
  | plain first last hhead =>
    exact ⟨_, .plain ((firstPair?_ofChars first last start stop).trans hhead)⟩
  | split first last o c hhead inside after =>
    have hpair := (firstPair?_ofChars first last start stop).trans hhead
    obtain ⟨style, hstyle, hinner, hafter⟩ := exists_styleOf?_of_known hhead h
    rw [styleOf?, ← getD_tags_ofChars] at hstyle
    obtain ⟨inner, hinner⟩ := inside hinner _ _
    obtain ⟨rest, hrest⟩ := after hafter _ _
    exact ⟨_, .split hpair hstyle hinner hrest⟩

def encloses (p q : Nat × Nat) : Prop := p.1 < q.1 ∧ q.2 < p.2

instance (p q : Nat × Nat) : Decidable (encloses p q) := inferInstanceAs (Decidable (_ ∧ _))

/-- An `inherit` in front stands alone. -/
def Settled : List Style → Prop
  | [] => True
  | style :: styles => style = .inherit → styles = []

theorem settle_piece_iff (start stop : Nat) (enclosing : List Style) :
    settle (piece cs start stop enclosing) = piece cs start stop enclosing ↔ Settled enclosing := by
  cases enclosing with
  | nil => exact iff_of_true rfl trivial
  | cons style enclosing =>
    simp only [settle, piece, List.isEmpty_cons, Bool.false_eq_true, if_false, Leaf.mk.injEq,
      true_and]
    exact settled_eq_self_iff style enclosing

theorem exists_piece_mem_spanLeaves (cs : List Char) (enclosing : List Style)
    (first last start stop : Nat) :
    ∃ stop', piece cs start stop' enclosing ∈
      spanLeaves cs (tags cs) enclosing first last start stop := by
  rw [spanLeaves]
  cases keptTags (keptIn (tags cs) first last) first last with
  | nil => exact ⟨stop, List.mem_cons_self⟩
  | cons i is => exact ⟨_, List.mem_cons_self⟩

/-- A pair of style `inherit` stands in no enclosing tag and inside no other of the pairs. -/
def InheritsApart (ts : List Tag) (enclosing : List Style) (ks : List (Nat × Nat)) : Prop :=
  ∀ q ∈ ks, styleOf? ts q = some .inherit → enclosing = [] ∧ ∀ p ∈ ks, ¬ encloses p q

theorem inheritsApart_nil_iff {ts : List Tag} {ks : List (Nat × Nat)} :
    InheritsApart ts [] ks ↔
      ∀ p ∈ ks, ∀ q ∈ ks, encloses p q → styleOf? ts q ≠ some .inherit := by
  constructor
  · intro hapart p hp q hq hencloses hinherit
    exact (hapart q hq hinherit).2 p hp hencloses
  · intro h q hq hinherit
    exact ⟨rfl, fun p hp hencloses => h p hp q hq hencloses hinherit⟩

theorem mem_keptIn_iff {ts : List Tag} {first last o c : Nat}
    (h : (pairsIn ts first last).head? = some (o, c)) {p : Nat × Nat} :
    p ∈ keptIn ts first last ↔
      p = (o, c) ∨ p ∈ keptIn ts (o + 1) c ∨ p ∈ keptIn ts (c + 1) last := by
  rw [keptIn_eq_cons h, List.mem_cons, List.mem_append]

theorem not_encloses_head {ts : List Tag} {first last o c : Nat}
    (h : (pairsIn ts first last).head? = some (o, c)) {p : Nat × Nat}
    (hp : p ∈ keptIn ts first last) : ¬ encloses p (o, c) := by
  rintro ⟨hopens, hcloses⟩
  obtain ⟨-, hoc, -, -⟩ := of_head?_pairsIn h
  rcases (mem_keptIn_iff h).mp hp with rfl | hinside | hafter
  · omega
  · have hbounds := mem_keptIn hinside
    omega
  · have hbounds := mem_keptIn hafter
    omega

theorem mem_keptIn_of_encloses {ts : List Tag} {first last o c : Nat}
    (h : (pairsIn ts first last).head? = some (o, c)) {p q : Nat × Nat}
    (hp : p ∈ keptIn ts first last) (hq : q ∈ keptIn ts (c + 1) last) (hencloses : encloses p q) :
    p ∈ keptIn ts (c + 1) last := by
  have hbounds := mem_keptIn hq
  have hcloses := hencloses.2
  rcases (mem_keptIn_iff h).mp hp with rfl | hinside | hafter
  · omega
  · have hinner := mem_keptIn hinside
    omega
  · exact hafter

theorem inheritsApart_cons {ts : List Tag} {first last o c : Nat} {style : Style}
    (h : (pairsIn ts first last).head? = some (o, c)) (hstyle : styleOf? ts (o, c) = some style)
    (enclosing : List Style) :
    InheritsApart ts enclosing (keptIn ts first last) ↔ (style = .inherit → enclosing = []) ∧
      InheritsApart ts (style :: enclosing) (keptIn ts (o + 1) c) ∧
        InheritsApart ts enclosing (keptIn ts (c + 1) last) := by
  have hhead : (o, c) ∈ keptIn ts first last := (mem_keptIn_iff h).mpr (.inl rfl)
  constructor
  · intro hapart
    refine ⟨?_, ?_, ?_⟩
    · rintro rfl
      exact (hapart (o, c) hhead hstyle).1
    · intro q hq hinherit
      have hbounds := mem_keptIn hq
      have hnone := (hapart q ((mem_keptIn_iff h).mpr (.inr (.inl hq))) hinherit).2 (o, c) hhead
      exact absurd ⟨by dsimp only; omega, hbounds.2.2⟩ hnone
    · intro q hq hinherit
      obtain ⟨henclosing, hnone⟩ := hapart q ((mem_keptIn_iff h).mpr (.inr (.inr hq))) hinherit
      exact ⟨henclosing, fun p hp => hnone p ((mem_keptIn_iff h).mpr (.inr (.inr hp)))⟩
  · rintro ⟨houter, hinner, hafter⟩ q hq hinherit
    rcases (mem_keptIn_iff h).mp hq with rfl | hq | hq
    · have hsame : style = .inherit := Option.some.inj (hstyle.symm.trans hinherit)
      exact ⟨houter hsame, fun p hp => not_encloses_head h hp⟩
    · -- Inside the first pair the enclosing styles are never empty.
      exact absurd (hinner q hq hinherit).1 (List.cons_ne_nil _ _)
    · obtain ⟨henclosing, hnone⟩ := hafter q hq hinherit
      refine ⟨henclosing, fun p hp hencloses => ?_⟩
      exact hnone p (mem_keptIn_of_encloses h hp hq hencloses) hencloses

/-- Under enclosing styles that are settled, the leaves of a span are settled unless some pair of
style `inherit` stands inside another or inside the enclosing tags. -/
theorem settle_spanLeaves_iff {first last : Nat}
    (hknown : (keptIn (tags cs) first last).find? (unknown (tags cs)) = none)
    {enclosing : List Style} (hsettled : Settled enclosing) (start stop : Nat) :
    (∀ l ∈ spanLeaves cs (tags cs) enclosing first last start stop, settle l = l) ↔
      InheritsApart (tags cs) enclosing (keptIn (tags cs) first last) := by
  induction first, last using span_induction (tags cs) generalizing enclosing start stop with
  | plain first last hhead =>
    rw [spanLeaves_of_plain hhead, keptIn_eq_nil hhead]
    simpa [InheritsApart] using (settle_piece_iff start stop enclosing).mpr hsettled
  | split first last o c hhead inside after =>
    obtain ⟨style, hstyle, hinner, hafter⟩ := exists_styleOf?_of_known hhead hknown
    have hpiece : settle (piece cs start (tagOf (tags cs) o).start enclosing) =
        piece cs start (tagOf (tags cs) o).start enclosing := (settle_piece_iff _ _ _).mpr hsettled
    rw [spanLeaves_eq_cons hhead hstyle, List.forall_mem_cons, List.forall_mem_append,
      inheritsApart_cons hhead hstyle, after hafter hsettled]
    by_cases hfree : style = .inherit → enclosing = []
    · have hsettled' : Settled (style :: enclosing) := hfree
      rw [inside hinner hsettled']
      exact ⟨fun h => ⟨hfree, h.2⟩, fun h => ⟨hpiece, h.2⟩⟩
    · -- The text right behind an `<inherit>` in another tag has both styles and is not settled.
      refine iff_of_false (fun h => hfree ?_) fun h => hfree h.1
      obtain ⟨stop', hmem⟩ := exists_piece_mem_spanLeaves cs (style :: enclosing) (o + 1) c
        (tagOf (tags cs) o).stop (tagOf (tags cs) c).start
      exact (settle_piece_iff _ _ _).mp (h.2.1 _ hmem)

theorem leaves_eq_spanLeaves {raw : String} {ls : List Leaf} (h : leaves raw = .ok ls) :
    (keptIn (tags raw.toList) 0 (tags raw.toList).length).find? (unknown (tags raw.toList)) = none ∧
      ls = spanLeaves raw.toList (tags raw.toList) [] 0 (tags raw.toList).length 0
        (byteSize raw.toList) := by
  rw [leaves_eq_pieces, kept, keptPairs_eq_keptIn] at h
  cases hknown : (keptIn (tags raw.toList) 0 (tags raw.toList).length).find?
      (unknown (tags raw.toList)) with
  | some p => simp [hknown] at h
  | none =>
    rw [hknown] at h
    exact ⟨rfl, (Except.ok.inj h).symm.trans (leavesBetween_keptPairs _ _)⟩

theorem whole_ofChars (cs : List Char) :
    (Source.ofChars cs).whole = ⟨0, (tags cs).length, 0, byteSize cs⟩ := by
  simp [Source.whole, Source.ofChars]

/-- What the rule gives for a whole text are its settled leaves. -/
theorem Ruled.eq_map_settle {raw : String} {ls rs : List Leaf} (h : leaves raw = .ok ls)
    (hruled : Ruled (Source.ofChars raw.toList) (Source.ofChars raw.toList).whole rs) :
    rs = ls.map settle := by
  have hmap := hruled.map_addStyles []
  have hplain : rs.map (addStyles []) = rs := List.map_id rs
  rw [hplain, whole_ofChars] at hmap
  rw [hmap, (leaves_eq_spanLeaves h).2]

/-- A text that parses has exactly one list of leaves by the rule, that of the stack with every leaf
settled. The stack follows the rule unless a pair of style `inherit` stands inside another. -/
theorem parse_follows_rule_iff {raw : String} {g : Segment} (h : parse raw = .ok g) :
    ∃ rs, (∀ rs', Ruled (Source.ofChars raw.toList) (Source.ofChars raw.toList).whole rs' ↔
        rs' = rs) ∧
      rs = g.leaves.map settle ∧
      (g.leaves = rs ↔ ∀ p ∈ kept raw, ∀ q ∈ kept raw, encloses p q →
        styleOf? (tags raw.toList) q ≠ some .inherit) := by
  obtain ⟨ls, hls, hg⟩ : ∃ ls, leaves raw = .ok ls ∧ Segment.ofLeaves ls = g := by
    cases hleaves : leaves raw with
    | error e => simp [parse, hleaves, Functor.map, Except.map] at h
    | ok ls =>
      rw [parse, hleaves] at h
      exact ⟨ls, rfl, Except.ok.inj h⟩
  have hgls : g.leaves = ls := by rw [← hg, Segment.leaves_ofLeaves]
  obtain ⟨hknown, hspan⟩ := leaves_eq_spanLeaves hls
  obtain ⟨rs, hrs⟩ := exists_ruled hknown 0 (byteSize raw.toList)
  rw [← whole_ofChars] at hrs
  have hsettle := hrs.eq_map_settle hls
  refine ⟨rs, fun rs' => ⟨fun hrs' => ?_, ?_⟩, hgls ▸ hsettle, ?_⟩
  · rw [hrs'.eq_map_settle hls, hsettle]
  · rintro rfl
    exact hrs
  -- No tag stands around the whole text, so only the pairs themselves can enclose one another.
  · have hnone : Settled [] := trivial
    have hiff := settle_spanLeaves_iff hknown hnone 0 (byteSize raw.toList)
    have hself : ls.map settle = ls ↔ ∀ l ∈ ls, settle l = l := by
      simpa only [List.map_id, id_eq] using List.map_inj_left (f := settle) (g := id) (l := ls)
    rw [← hspan] at hiff
    rw [hgls, hsettle, eq_comm, hself, hiff, inheritsApart_nil_iff, kept, keptPairs_eq_keptIn]

/-- A pair of style `inherit` that stands behind another pair. -/
theorem parse_follows_rule_iff_beside :
    ∃ g, parse "<bold>x</bold><inherit>y</inherit>" = .ok g ∧
      Ruled (Source.ofChars "<bold>x</bold><inherit>y</inherit>".toList)
        (Source.ofChars "<bold>x</bold><inherit>y</inherit>".toList).whole g.leaves := by
  have hok : (parse "<bold>x</bold><inherit>y</inherit>").isOk = true := by decide +kernel
  cases hparse : parse "<bold>x</bold><inherit>y</inherit>" with
  | error e =>
    rw [hparse] at hok
    cases hok
  | ok g =>
    obtain ⟨rs, hruled, -, hiff⟩ := parse_follows_rule_iff hparse
    refine ⟨g, rfl, (hruled g.leaves).mpr (hiff.mpr ?_)⟩
    decide +kernel

/-- The text in the tags has the style `inherit` besides `bold`, where the rule leaves `bold`. -/
theorem inherit_in_bold_breaks_rule :
    ∃ g, parse "<bold><inherit>x</inherit></bold>" = .ok g ∧
      ¬ Ruled (Source.ofChars "<bold><inherit>x</inherit></bold>".toList)
        (Source.ofChars "<bold><inherit>x</inherit></bold>".toList).whole g.leaves := by
  have hleaves : leaves "<bold><inherit>x</inherit></bold>" = .ok [⟨"", [.inherit]⟩, ⟨"", [.bold]⟩,
      ⟨"x", [.inherit, .bold]⟩, ⟨"", [.bold]⟩, ⟨"", [.inherit]⟩] := by decide +kernel
  refine ⟨Segment.ofLeaves _, by rw [parse, hleaves]; rfl, fun hruled => ?_⟩
  rw [Segment.leaves_ofLeaves] at hruled
  have hsettle := hruled.eq_map_settle hleaves
  revert hsettle
  decide

end ExamVariants.Markup
