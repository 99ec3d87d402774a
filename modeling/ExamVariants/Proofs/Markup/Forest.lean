import ExamVariants.Proofs.Markup.Run
import ExamVariants.Proofs.Text.Blanks

namespace ExamVariants.Markup

/-- A text in which no tag can begin. -/
abbrev PlainText := { s : String // '<' ∉ s.toList }

/-- The name of a style in any mix of letter cases. -/
structure Spelling (style : Style) where
  name : String
  lower_name : Text.lower name = style.name

/-- Plain texts, and tags of a style around a forest, one after the other. -/
inductive Forest where
  | nil
  | text (s : PlainText) (rest : Forest)
  | styled (style : Style) (opening closing : Spelling style) (inner rest : Forest)

def tagText (closing : Bool) (name : String) : List Char :=
  '<' :: ((if closing then ['/'] else []) ++ (name.toList ++ ['>']))

namespace Forest

def chars : Forest → List Char
  | nil => []
  | text s rest => s.val.toList ++ rest.chars
  | styled _ opening closing inner rest =>
    tagText false opening.name ++ (inner.chars ++ (tagText true closing.name ++ rest.chars))

def written (f : Forest) : String := String.ofList f.chars

/-- The pieces of text between consecutive tags, under the styles of the tags around them, innermost
first; `before` is the text since the last tag. -/
def piecesFrom (enclosing : List Style) (before : List Char) : Forest → List Leaf
  | nil => [⟨String.ofList before, if enclosing.isEmpty then [.inherit] else enclosing⟩]
  | text s rest => rest.piecesFrom enclosing (before ++ s.val.toList)
  | styled style _ _ inner rest =>
    ⟨String.ofList before, if enclosing.isEmpty then [.inherit] else enclosing⟩ ::
      (inner.piecesFrom (style :: enclosing) [] ++ rest.piecesFrom enclosing [])

def pieces (f : Forest) : List Leaf := f.piecesFrom [] []

end Forest

theorem isNameChar_of_toLower {c : Char} (h : isNameChar c.toLower = true) :
    isNameChar c = true := by
  unfold Char.toLower at h
  split at h
  · next hupper =>
    have hcase : c.isUpper = true := decide_eq_true hupper
    unfold isNameChar Char.isAlpha
    rw [hcase]
    rfl
  · exact h

theorem not_isBlank_of_isNameChar {c : Char} (h : isNameChar c = true) :
    Text.isBlank c = false := by
  have hbounds : 65 ≤ c.toNat ∧ c.toNat ≤ 122 := by
    unfold isNameChar Char.isAlpha Char.isUpper Char.isLower at h
    simp only [Bool.or_eq_true, Bool.and_eq_true, decide_eq_true_eq, beq_iff_eq] at h
    rcases h with (⟨hlow, hhigh⟩ | ⟨hlow, hhigh⟩) | rfl
    · exact ⟨hlow, Nat.le_trans hhigh (by decide)⟩
    · exact ⟨Nat.le_trans (by decide) hlow, hhigh⟩
    · decide
  rw [Bool.eq_false_iff]
  intro hblank
  have hoff := Text.toNat_of_isBlank hblank
  omega

namespace Spelling

variable {style : Style}

theorem map_toLower (s : Spelling style) : s.name.toList.map Char.toLower = style.name.toList := by
  rw [← s.lower_name, Text.lower, String.toList_ofList]

theorem isNameChar_of_mem (s : Spelling style) {c : Char} (hc : c ∈ s.name.toList) :
    isNameChar c = true := by
  have hname : style.name.toList.all isNameChar = true := by
    cases style <;> decide
  apply isNameChar_of_toLower
  apply List.all_eq_true.mp hname
  rw [← s.map_toLower]
  exact List.mem_map_of_mem hc

theorem toList_ne_nil (s : Spelling style) : s.name.toList ≠ [] := by
  intro hnil
  have hname := s.map_toLower
  rw [hnil] at hname
  cases style <;> exact absurd hname (by decide)

theorem ofName?_name (s : Spelling style) : Style.ofName? s.name = some style := by
  have hstrip : Text.strip s.name = s.name := by
    have htrimmed : Text.Trimmed s.name.toList := Text.trimmed_of_forall fun c hc =>
      not_isBlank_of_isNameChar (s.isNameChar_of_mem hc)
    rw [Text.strip, htrimmed.stripChars_eq, String.ofList_toList]
  rw [Style.ofName?, hstrip, s.lower_name]
  cases style <;> decide

theorem toLower_name (s : Spelling style) : s.name.toLower = style.name := by
  apply String.toList_injective
  unfold String.toLower
  rw [String.toList_map, s.map_toLower]

end Spelling

def writtenTag (closing : Bool) (name : String) (offset : Nat) : Tag :=
  ⟨closing, name, offset, offset + byteSize (tagText closing name)⟩

theorem tagsFrom_tagText {style : Style} (closing : Bool) (s : Spelling style) (offset : Nat)
    (rest : List Char) :
    tagsFrom offset (tagText closing s.name ++ rest) =
      writtenTag closing s.name offset ::
        tagsFrom (offset + byteSize (tagText closing s.name)) rest := by
  have hnamed : (writtenTag closing s.name offset).WellNamed :=
    ⟨s.toList_ne_nil, fun c hc => s.isNameChar_of_mem hc⟩
  exact tagsFrom_spelling hnamed rfl rest

namespace Forest

/-- The tags of the forest when it is written at a byte offset. -/
def tagsAt (offset : Nat) : Forest → List Tag
  | nil => []
  | text s rest => rest.tagsAt (offset + byteSize s.val.toList)
  | styled _ opening closing inner rest =>
    let inside := offset + byteSize (tagText false opening.name)
    let behind := inside + byteSize inner.chars
    writtenTag false opening.name offset ::
      (inner.tagsAt inside ++ (writtenTag true closing.name behind ::
        rest.tagsAt (behind + byteSize (tagText true closing.name))))

theorem tagsFrom_chars (f : Forest) (offset : Nat) (rest : List Char) :
    tagsFrom offset (f.chars ++ rest) =
      f.tagsAt offset ++ tagsFrom (offset + byteSize f.chars) rest := by
  induction f generalizing offset rest with
  | nil => rfl
  | text s f ih =>
    rw [chars, List.append_assoc, tagsFrom_of_notMem s.property, ih, tagsAt, byteSize_append,
      Nat.add_assoc]
  | styled style opening closing inner f ihinner ih =>
    rw [chars, List.append_assoc, tagsFrom_tagText, List.append_assoc, ihinner, List.append_assoc,
      tagsFrom_tagText, ih, tagsAt]
    simp only [byteSize_append, List.cons_append, List.append_assoc, Nat.add_assoc]

def tagCount : Forest → Nat
  | nil => 0
  | text _ rest => rest.tagCount
  | styled _ _ _ inner rest => inner.tagCount + rest.tagCount + 2

theorem length_tagsAt (f : Forest) (offset : Nat) : (f.tagsAt offset).length = f.tagCount := by
  induction f generalizing offset with
  | nil => rfl
  | text s f ih => exact ih _
  | styled style opening closing inner f ihinner ih =>
    rw [tagsAt, List.length_cons, List.length_append, List.length_cons, ihinner, ih, tagCount]
    omega

/-- The pairs of tags in the order of the closing tags, when the first tag has an index. -/
def pairsAt (index : Nat) : Forest → List (Nat × Nat)
  | nil => []
  | text _ rest => rest.pairsAt index
  | styled _ _ _ inner rest =>
    inner.pairsAt (index + 1) ++ ((index, index + 1 + inner.tagCount) ::
      rest.pairsAt (index + 1 + inner.tagCount + 1))

theorem pairsFrom_opening (name : String) (offset index : Nat) (pending : List (String × Nat))
    (ts : List Tag) :
    pairsFrom index pending (writtenTag false name offset :: ts) =
      pairsFrom (index + 1) ((name.toLower, index) :: pending) ts := rfl

theorem pairsFrom_closing {name key : String} (h : key = name.toLower) (offset index o : Nat)
    (pending : List (String × Nat)) (ts : List Tag) :
    pairsFrom index ((key, o) :: pending) (writtenTag true name offset :: ts) =
      (o, index) :: pairsFrom (index + 1) pending ts := by
  have hlatest : closeLatest? (writtenTag true name offset).key ((key, o) :: pending) =
      some (o, pending) := if_pos h
  have hclosing : (writtenTag true name offset).closing = true := rfl
  rw [pairsFrom, if_pos hclosing, hlatest]

/-- Whatever tags are open before the forest, its own tags close one another. -/
theorem pairsFrom_tagsAt (f : Forest) (index offset : Nat) (pending : List (String × Nat))
    (ts : List Tag) :
    pairsFrom index pending (f.tagsAt offset ++ ts) =
      f.pairsAt index ++ pairsFrom (index + f.tagCount) pending ts := by
  induction f generalizing index offset pending ts with
  | nil => rfl
  | text s f ih => exact ih index _ pending ts
  | styled style opening closing inner f ihinner ih =>
    have hkey : opening.name.toLower = closing.name.toLower :=
      opening.toLower_name.trans closing.toLower_name.symm
    have hcount : index + 1 + inner.tagCount + 1 + f.tagCount =
        index + (inner.tagCount + f.tagCount + 2) := by omega
    -- The opening tag lies on top when its closing tag comes, for the tags inside are all closed.
    rw [tagsAt, List.cons_append, pairsFrom_opening, List.append_assoc, ihinner, List.cons_append,
      pairsFrom_closing hkey, ih, pairsAt, List.append_assoc, List.cons_append, tagCount, hcount]

variable {cs : List Char}

/-- The forest is written in the text behind `before`, with its tags from index `first` on, and its
pairs are pairs of the text. -/
structure StandsIn (cs : List Char) (f : Forest) (before : List Char) (first : Nat) : Prop where
  chars : ∃ after, cs = before ++ (f.chars ++ after)
  tags : ∃ after, (Markup.tags cs).drop first = f.tagsAt (byteSize before) ++ after
  partners : ∀ p ∈ f.pairsAt first, partner? (Markup.tags cs) p.1 = some p.2

theorem tagOf_of_drop {ts after : List Tag} {t : Tag} {i : Nat} (h : ts.drop i = t :: after) :
    tagOf ts i = t := by
  rw [tagOf, List.getD_eq_getElem?_getD, ← List.head?_drop, h]
  rfl

theorem drop_of_drop_eq_append {ts after : List Tag} (mid : List Tag) {i n : Nat}
    (h : ts.drop i = mid ++ after) (hn : mid.length = n) : ts.drop (i + n) = after := by
  rw [← List.drop_drop, h, ← hn, List.drop_left]

theorem head?_pairsIn_of_partner? {ts : List Tag} {first last c : Nat}
    (hpartner : partner? ts first = some c) (hlast : c < last) :
    (pairsIn ts first last).head? = some (first, c) := by
  have hlt := lt_of_partner? hpartner
  have hpair : pairAt? ts last first = some (first, c) :=
    pairAt?_eq_some_iff.mpr ⟨rfl, hlast, hpartner⟩
  rw [pairsIn, range'_eq_append_cons (Nat.le_refl first) (Nat.lt_trans hlt hlast), Nat.sub_self,
    List.range'_zero, List.nil_append, List.filterMap_cons_some hpair]
  rfl

namespace StandsIn

theorem of_text {s : PlainText} {f : Forest} {before : List Char} {first : Nat}
    (h : StandsIn cs (text s f) before first) :
    StandsIn cs f (before ++ s.val.toList) first := by
  obtain ⟨after, hcs⟩ := h.chars
  refine ⟨⟨after, ?_⟩, ?_, h.partners⟩
  · rw [hcs, Forest.chars, List.append_assoc, List.append_assoc]
  · rw [byteSize_append]
    exact h.tags

variable {style : Style} {opening closing : Spelling style} {inner f : Forest}
  {before : List Char} {first : Nat}

theorem tagOf_opening (h : StandsIn cs (styled style opening closing inner f) before first) :
    tagOf (Markup.tags cs) first = writtenTag false opening.name (byteSize before) := by
  obtain ⟨after, htags⟩ := h.tags
  exact tagOf_of_drop htags

theorem drop_inner (h : StandsIn cs (styled style opening closing inner f) before first) :
    ∃ after, (Markup.tags cs).drop (first + 1) =
      inner.tagsAt (byteSize (before ++ tagText false opening.name)) ++
        (writtenTag true closing.name
            (byteSize (before ++ (tagText false opening.name ++ inner.chars))) ::
          (f.tagsAt (byteSize (before ++ (tagText false opening.name ++
            (inner.chars ++ tagText true closing.name)))) ++ after)) := by
  obtain ⟨after, htags⟩ := h.tags
  refine ⟨after, ?_⟩
  rw [tagsAt, List.cons_append, ← List.singleton_append, List.append_assoc] at htags
  have hrest := drop_of_drop_eq_append _ htags List.length_singleton
  simpa only [byteSize_append, Nat.add_assoc, List.cons_append] using hrest

theorem drop_closing (h : StandsIn cs (styled style opening closing inner f) before first) :
    ∃ after, (Markup.tags cs).drop (first + 1 + inner.tagCount) =
      writtenTag true closing.name
          (byteSize (before ++ (tagText false opening.name ++ inner.chars))) ::
        (f.tagsAt (byteSize (before ++ (tagText false opening.name ++
          (inner.chars ++ tagText true closing.name)))) ++ after) := by
  obtain ⟨after, htags⟩ := h.drop_inner
  exact ⟨after, drop_of_drop_eq_append _ htags (inner.length_tagsAt _)⟩

theorem of_inner (h : StandsIn cs (styled style opening closing inner f) before first) :
    StandsIn cs inner (before ++ tagText false opening.name) (first + 1) := by
  obtain ⟨after, hcs⟩ := h.chars
  obtain ⟨_, htags⟩ := h.drop_inner
  refine ⟨⟨tagText true closing.name ++ (f.chars ++ after), ?_⟩, ⟨_, htags⟩, fun p hp => ?_⟩
  · rw [hcs, Forest.chars]
    simp only [List.append_assoc]
  · exact h.partners p (List.mem_append_left _ hp)

theorem tagOf_closing (h : StandsIn cs (styled style opening closing inner f) before first) :
    tagOf (Markup.tags cs) (first + 1 + inner.tagCount) =
      writtenTag true closing.name
        (byteSize (before ++ (tagText false opening.name ++ inner.chars))) := by
  obtain ⟨after, htags⟩ := h.drop_closing
  exact tagOf_of_drop htags

theorem of_rest (h : StandsIn cs (styled style opening closing inner f) before first) :
    StandsIn cs f
      (before ++ (tagText false opening.name ++ (inner.chars ++ tagText true closing.name)))
      (first + 1 + inner.tagCount + 1) := by
  obtain ⟨after, hcs⟩ := h.chars
  obtain ⟨tagsAfter, htags⟩ := h.drop_closing
  refine ⟨⟨after, ?_⟩, ⟨tagsAfter, ?_⟩, fun p hp => ?_⟩
  · rw [hcs, Forest.chars]
    simp only [List.append_assoc]
  · exact drop_of_drop_eq_append [_] htags List.length_singleton
  · exact h.partners p (List.mem_append_right _ (List.mem_cons_of_mem _ hp))

theorem partner?_opening (h : StandsIn cs (styled style opening closing inner f) before first) :
    partner? (Markup.tags cs) first = some (first + 1 + inner.tagCount) :=
  h.partners (first, first + 1 + inner.tagCount)
    (List.mem_append_right _ List.mem_cons_self)

theorem styleOf?_opening (h : StandsIn cs (styled style opening closing inner f) before first) :
    styleOf? (Markup.tags cs) (first, first + 1 + inner.tagCount) = some style := by
  rw [styleOf?, h.tagOf_opening]
  exact opening.ofName?_name

theorem head?_pairsIn (h : StandsIn cs (styled style opening closing inner f) before first) :
    (pairsIn (Markup.tags cs) first
      (first + (styled style opening closing inner f).tagCount)).head? =
        some (first, first + 1 + inner.tagCount) := by
  apply head?_pairsIn_of_partner? h.partner?_opening
  rw [tagCount]
  omega

end StandsIn

theorem piece_between {before text after : List Char} (h : cs = before ++ text ++ after)
    (styles : List Style) :
    piece cs (byteSize before) (byteSize (before ++ text)) styles =
      ⟨String.ofList text, if styles.isEmpty then [.inherit] else styles⟩ := by
  rw [piece, h, slice_eq]

theorem head?_pairsIn_self (ts : List Tag) (first : Nat) :
    (pairsIn ts first first).head? = none := by
  rw [pairsIn, Nat.sub_self]
  rfl

theorem first_add_tagCount (style : Style) (opening closing : Spelling style) (inner f : Forest)
    (first : Nat) :
    first + (styled style opening closing inner f).tagCount =
      first + 1 + inner.tagCount + 1 + f.tagCount := by
  rw [tagCount]
  omega

theorem find?_unknown_of_standsIn {f : Forest} {before : List Char} {first : Nat}
    (h : StandsIn cs f before first) :
    (keptIn (tags cs) first (first + f.tagCount)).find? (unknown (tags cs)) = none := by
  induction f generalizing before first with
  | nil =>
    rw [tagCount, Nat.add_zero, keptIn_eq_nil (head?_pairsIn_self _ first)]
    rfl
  | text s f ih => exact ih h.of_text
  | styled style opening closing inner f ihinner ih =>
    have hhead := h.head?_pairsIn
    have hknown : ¬ unknown (tags cs) (first, first + 1 + inner.tagCount) = true := by
      simp [unknown, h.styleOf?_opening]
    rw [first_add_tagCount] at hhead ⊢
    rw [keptIn_eq_cons hhead, List.find?_cons_of_neg hknown, List.find?_append, ihinner h.of_inner,
      ih h.of_rest]
    rfl

/-- The pairs of the forest cut its text into its pieces; `text` stands between the last tag before
the forest and the forest. -/
theorem spanLeaves_of_standsIn {f : Forest} {before text : List Char} {first : Nat}
    (h : StandsIn cs f (before ++ text) first) (enclosing : List Style) :
    spanLeaves cs (tags cs) enclosing first (first + f.tagCount) (byteSize before)
      (byteSize (before ++ text ++ f.chars)) = f.piecesFrom enclosing text := by
  induction f generalizing before text first enclosing with
  | nil =>
    obtain ⟨after, hcs⟩ := h.chars
    rw [chars, List.append_nil, tagCount, Nat.add_zero,
      spanLeaves_of_plain (head?_pairsIn_self _ first), piece_between hcs]
    rfl
  | text s f ih =>
    have hrest := h.of_text
    rw [List.append_assoc] at hrest
    have hf := ih hrest enclosing
    rw [← List.append_assoc, List.append_assoc _ s.val.toList] at hf
    exact hf
  | styled style opening closing inner f ihinner ih =>
    obtain ⟨after, hcs⟩ := h.chars
    have hhead := h.head?_pairsIn
    -- No text stands between a tag and the forest behind it.
    have hinside : StandsIn cs inner (before ++ text ++ tagText false opening.name ++ [])
        (first + 1) := by
      rw [List.append_nil]
      exact h.of_inner
    have hbehind : StandsIn cs f (before ++ text ++ (tagText false opening.name ++
        (inner.chars ++ tagText true closing.name)) ++ []) (first + 1 + inner.tagCount + 1) := by
      rw [List.append_nil]
      exact h.of_rest
    rw [first_add_tagCount] at hhead ⊢
    rw [spanLeaves_eq_cons hhead h.styleOf?_opening, h.tagOf_opening, h.tagOf_closing, piecesFrom,
      ← ihinner hinside (style :: enclosing), ← ih hbehind enclosing]
    simp only [writtenTag]
    rw [piece_between hcs]
    simp only [byteSize_append, List.append_nil, chars, Nat.add_assoc]

theorem tags_chars (f : Forest) : tags f.chars = f.tagsAt 0 := by
  have h := f.tagsFrom_chars 0 []
  rwa [List.append_nil, tagsFrom, List.append_nil] at h

theorem standsIn_chars (f : Forest) : StandsIn f.chars f [] 0 := by
  have hpairs : pairs (tags f.chars) = f.pairsAt 0 := by
    have h := f.pairsFrom_tagsAt 0 0 [] []
    rwa [List.append_nil, pairsFrom, List.append_nil, ← tags_chars] at h
  refine ⟨⟨[], by simp⟩, ⟨[], by simpa [byteSize] using f.tags_chars⟩, fun p hp => ?_⟩
  rw [partner?_eq_some_iff, ← pairs_eq_pairing, hpairs]
  exact hp

/-- A forest that is written parses, and its leaves are the pieces of text between consecutive tags,
each with the styles of the tags around it from the innermost on. -/
theorem parse_written (f : Forest) : ∃ g, parse f.written = .ok g ∧ g.leaves = f.pieces := by
  have hcs : f.written.toList = f.chars := String.toList_ofList
  have hlast : (tags f.chars).length = 0 + f.tagCount := by
    rw [tags_chars, length_tagsAt, Nat.zero_add]
  have hstands : StandsIn f.chars f ([] ++ []) 0 := f.standsIn_chars
  have hknown := find?_unknown_of_standsIn f.standsIn_chars
  have hpieces := spanLeaves_of_standsIn hstands []
  rw [← hlast] at hknown hpieces
  have hkept : (kept f.written).find? (unknown (tags f.written.toList)) = none := by
    rw [kept, keptPairs_eq_keptIn, hcs]
    exact hknown
  have hleaves : Markup.pieces f.written = f.pieces := by
    rw [Markup.pieces, kept, leavesBetween_keptPairs, hcs]
    exact hpieces
  refine ⟨Segment.ofLeaves f.pieces, ?_, Segment.leaves_ofLeaves _⟩
  rw [parse_eq, hkept, hleaves]

end Forest

end ExamVariants.Markup
