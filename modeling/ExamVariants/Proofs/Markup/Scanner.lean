import ExamVariants.Proofs.Markup.Occurrence

namespace ExamVariants.Markup

/-- The name from byte `start` on, if it is not empty and a `>` closes it; `none` on the outside
stands for an invalid slice. -/
def closedName? (cs : List Char) (start : Nat) : Option (Option (List Char)) := do
  let behind ← slice? start (byteSize cs) cs
  let stop := start + byteSize (behind.takeWhile isNameChar)
  if stop = start then some none
  else
    let rest ← slice? stop (byteSize cs) cs
    if rest.head? = some '>' then (slice? start stop cs).map some else some none

/-- The byte at which the scan goes on, and the tags before it. -/
structure Scan where
  cursor : Nat
  found : List Tag

/-- A pass of the scan, which is over when no `<` lies behind the cursor; `none` on the outside stands
for an invalid slice. -/
def Scan.pass? (cs : List Char) (s : Scan) : Option (Option Scan) := do
  let behind ← slice? s.cursor (byteSize cs) cs
  if '<' ∈ behind then
    let start := s.cursor + byteSize (behind.takeWhile (· != '<'))
    let inside ← slice? (start + 1) (byteSize cs) cs
    let closing := inside.head? == some '/'
    let nameStart := if closing then start + 2 else start + 1
    match ← closedName? cs nameStart with
    | some name =>
      let stop := nameStart + byteSize name + 1
      some (some ⟨stop, s.found ++ [⟨closing, String.ofList name, start, stop⟩]⟩)
    | none => some (some ⟨start + 1, s.found⟩)
  else some none

/-- From a state the scan ends with some tags, all its slices being valid. -/
inductive Scan.Finds (cs : List Char) : Scan → List Tag → Prop
  | last {s : Scan} (h : s.pass? cs = some none) : Finds cs s s.found
  | next {s s' : Scan} {ts : List Tag} (h : s.pass? cs = some (some s')) (hrest : Finds cs s' ts) :
      Finds cs s ts

theorem Scan.Finds.unique {cs : List Char} {s : Scan} {ts ts' : List Tag} (h : s.Finds cs ts)
    (h' : s.Finds cs ts') : ts = ts' := by
  induction h with
  | last hlast =>
    cases h' with
    | last => rfl
    | next hnext => cases hlast.symm.trans hnext
  | next hnext _ ih =>
    cases h' with
    | last hlast => cases hlast.symm.trans hnext
    | next hnext' hrest =>
      obtain rfl := Option.some.inj (Option.some.inj (hnext.symm.trans hnext'))
      exact ih hrest

theorem slice?_to_end (xs ys : List Char) :
    slice? (byteSize xs) (byteSize (xs ++ ys)) (xs ++ ys) = some ys := by
  simpa using slice?_eq xs ys []

theorem closedName?_eq (front behind : List Char) :
    closedName? (front ++ behind) (byteSize front) = some (nameBefore? behind) := by
  obtain ⟨name, rest, hbehind, hname, hrest⟩ : ∃ name rest, behind = name ++ rest ∧
      behind.takeWhile isNameChar = name ∧ behind.dropWhile isNameChar = rest :=
    ⟨_, _, List.takeWhile_append_dropWhile.symm, rfl, rfl⟩
  have hrestSlice : slice? (byteSize (front ++ name)) (byteSize (front ++ behind)) (front ++ behind) =
      some rest := by
    rw [hbehind, ← List.append_assoc]
    exact slice?_to_end (front ++ name) rest
  have hnameSlice : slice? (byteSize front) (byteSize (front ++ name)) (front ++ behind) =
      some name := by
    rw [hbehind, ← List.append_assoc]
    exact slice?_eq front name rest
  rw [closedName?, slice?_to_end, nameBefore?, hname, hrest]
  simp only [Option.bind_eq_bind, Option.bind_some, hname, ← byteSize_append, hrestSlice, hnameSlice]
  -- With all slices valid, the cursor and the recursive reader ask the same of the two parts.
  cases name with
  | nil => rw [List.append_nil, if_pos rfl]
  | cons c name =>
    have hpos := c.utf8Size_pos
    rw [if_neg (by rw [byteSize_append, byteSize]; omega)]
    cases rest with
    | nil => rfl
    | cons d rest => by_cases hd : d = '>' <;> simp [hd]

def Scan.after (found : List Tag) (start : Nat) : Option Tag → Scan
  | some t => ⟨t.stop, found ++ [t]⟩
  | none => ⟨start + 1, found⟩

theorem Scan.pass?_of_notMem {front plain : List Char} (h : '<' ∉ plain) (found : List Tag) :
    Scan.pass? (front ++ plain) ⟨byteSize front, found⟩ = some none := by
  rw [Scan.pass?, slice?_to_end]
  simp only [Option.bind_eq_bind, Option.bind_some, if_neg h]

theorem byteSize_of_nameBefore? {cs name : List Char} (h : nameBefore? cs = some name) :
    byteSize name = name.length :=
  byteSize_of_nameChars (nameBefore?_eq_some_iff.mp h).2.1

theorem tagAt?_of_slash (offset : Nat) (text : List Char) :
    tagAt? offset ('<' :: '/' :: text) = (nameBefore? text).map fun name =>
      ⟨true, String.ofList name, offset, offset + 2 + byteSize name + 1⟩ := by
  rw [tagAt?]
  refine Option.map_congr fun name hname => ?_
  rw [byteSize_of_nameBefore? hname, Nat.add_right_comm offset 2]

theorem tagAt?_of_ne_slash (offset : Nat) {text : List Char} (h : text.head? ≠ some '/') :
    tagAt? offset ('<' :: text) = (nameBefore? text).map fun name =>
      ⟨false, String.ofList name, offset, offset + 1 + byteSize name + 1⟩ := by
  rw [tagAt?]
  · refine Option.map_congr fun name hname => ?_
    rw [byteSize_of_nameBefore? hname, Nat.add_right_comm offset 1]
  · rintro rest rfl
    exact h rfl

theorem Scan.pass?_of_name {front plain mark text : List Char} {closing : Bool} (h : '<' ∉ plain)
    (hmark : mark = if closing then ['/'] else [])
    (hclosing : ((mark ++ text).head? == some '/') = closing) (found : List Tag) :
    Scan.pass? (front ++ (plain ++ '<' :: (mark ++ text))) ⟨byteSize front, found⟩ =
      some (some (Scan.after found (byteSize (front ++ plain)) ((nameBefore? text).map fun name =>
        ⟨closing, String.ofList name, byteSize (front ++ plain),
          (if closing then byteSize (front ++ plain) + 2 else byteSize (front ++ plain) + 1) +
            byteSize name + 1⟩))) := by
  have hplain : (plain ++ '<' :: (mark ++ text)).takeWhile (· != '<') = plain := by
    rw [List.takeWhile_append_of_pos, List.takeWhile_cons_of_neg (by simp), List.append_nil]
    intro c hc
    simpa using fun heq : c = '<' => h (heq ▸ hc)
  have hmem : '<' ∈ plain ++ '<' :: (mark ++ text) := by simp
  have hlt : byteSize (front ++ plain ++ ['<']) = byteSize (front ++ plain) + 1 :=
    byteSize_append _ ['<']
  have hinside : slice? (byteSize (front ++ plain) + 1)
      (byteSize (front ++ (plain ++ '<' :: (mark ++ text))))
      (front ++ (plain ++ '<' :: (mark ++ text))) = some (mark ++ text) := by
    have hcs : front ++ (plain ++ '<' :: (mark ++ text)) =
        front ++ plain ++ ['<'] ++ (mark ++ text) := by simp
    rw [hcs, ← hlt]
    exact slice?_to_end _ _
  have hstart : byteSize (front ++ plain ++ ['<'] ++ mark) =
      if closing then byteSize (front ++ plain) + 2 else byteSize (front ++ plain) + 1 := by
    rw [byteSize_append, hlt, hmark]
    cases closing <;> rfl
  have hname := closedName?_eq (front ++ plain ++ ['<'] ++ mark) text
  rw [hstart, List.append_assoc, List.append_assoc, List.append_assoc, List.singleton_append] at hname
  rw [Scan.pass?, slice?_to_end]
  simp only [Option.bind_eq_bind, Option.bind_some, if_pos hmem, hplain, ← byteSize_append, hinside,
    hclosing, hname]
  cases nameBefore? text <;> rfl

theorem Scan.pass?_of_lt {front plain inside : List Char} (h : '<' ∉ plain) (found : List Tag) :
    Scan.pass? (front ++ (plain ++ '<' :: inside)) ⟨byteSize front, found⟩ =
      some (some (Scan.after found (byteSize (front ++ plain))
        (tagAt? (byteSize (front ++ plain)) ('<' :: inside)))) := by
  by_cases hslash : inside.head? = some '/'
  · obtain ⟨text, rfl⟩ := List.head?_eq_some_iff.mp hslash
    rw [tagAt?_of_slash]
    have hmark : ['/'] = if true then ['/'] else [] := rfl
    exact Scan.pass?_of_name h hmark rfl found
  · rw [tagAt?_of_ne_slash _ hslash]
    have hmark : [] = if false then ['/'] else [] := rfl
    exact Scan.pass?_of_name h hmark (by simpa using hslash) found

/-- From any byte on, the scan finds the tags that begin there or behind. -/
theorem Scan.finds_tagsFrom (front rest : List Char) (found : List Tag) :
    Scan.Finds (front ++ rest) ⟨byteSize front, found⟩
      (found ++ tagsFrom (byteSize front) rest) := by
  -- A pass takes a tag or a `<` from the text ahead, so the induction is on its length.
  induction hn : rest.length using Nat.strongRecOn generalizing front rest found with
  | ind n ih =>
    by_cases hmem : '<' ∈ rest
    · obtain ⟨plain, inside, rfl, hplain⟩ := List.eq_append_cons_of_mem hmem
      rw [List.length_append, List.length_cons] at hn
      refine .next (Scan.pass?_of_lt hplain found) ?_
      rw [tagsFrom_of_notMem hplain, ← byteSize_append]
      cases htag : tagAt? (byteSize (front ++ plain)) ('<' :: inside) with
      | none =>
        have hsize : byteSize (front ++ plain ++ ['<']) = byteSize (front ++ plain) + 1 :=
          byteSize_append _ ['<']
        have hrest := ih inside.length (by omega) (front ++ plain ++ ['<']) inside found rfl
        rw [hsize, List.append_assoc, List.append_assoc] at hrest
        rw [tagsFrom, htag]
        exact hrest
      | some t =>
        obtain ⟨hnamed, ⟨behind, hbehind⟩, hstart, hstop⟩ := tagAt?_eq_some_iff.mp htag
        have hlength : behind.length < n := by
          have hpos : 0 < t.spelling.length := Nat.succ_pos _
          have hsame := congrArg List.length hbehind
          rw [List.length_cons, List.length_append] at hsame
          omega
        have hrest := ih behind.length hlength (front ++ plain ++ t.spelling) behind
          (found ++ [t]) rfl
        rw [byteSize_append _ t.spelling, ← hstop, List.append_assoc, List.append_assoc,
          List.append_assoc found, ← hbehind] at hrest
        rw [hbehind, ← hstart, tagsFrom_spelling hnamed (by rw [hstop, hstart]), ← hbehind]
        exact hrest
    · have hnone : tagsFrom (byteSize front) rest = [] := by
        have hplain := tagsFrom_of_notMem hmem (byteSize front) []
        rwa [List.append_nil, tagsFrom] at hplain
      rw [hnone, List.append_nil]
      exact .last (Scan.pass?_of_notMem hmem found)

theorem Scan.finds_tags (cs : List Char) : Scan.Finds cs ⟨0, []⟩ (tags cs) :=
  Scan.finds_tagsFrom [] cs []

/-- The scan ends, every slice that it takes is valid, and it gives the tags of the text: every
occurrence of a tag and nothing else, in order and none reaching into the next. -/
theorem scan_finds_all_tags (raw : String) :
    (∀ ts, Scan.Finds raw.toList ⟨0, []⟩ ts ↔ ts = tags raw.toList) ∧
    (∀ t, t ∈ tags raw.toList ↔ t.Occurs raw.toList) ∧
    (tags raw.toList).Pairwise fun t u => t.start < u.start ∧ t.stop ≤ u.start := by
  have hfinds := Scan.finds_tags raw.toList
  refine ⟨fun ts => ⟨fun h => h.unique hfinds, fun h => h ▸ hfinds⟩, fun t => mem_tags_iff, ?_⟩
  refine (tags_pairwise raw.toList).imp_of_mem fun ht _ hle => ⟨?_, hle⟩
  exact Nat.lt_of_lt_of_le (mem_tags_iff.mp ht).start_lt_stop hle

end ExamVariants.Markup
