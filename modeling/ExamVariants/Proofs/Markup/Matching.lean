import ExamVariants.Proofs.Markup.Pairing

namespace ExamVariants.Markup

variable {ts : List Tag} {key : String}

/-- The open tags of a name before tag `n`, latest first. -/
def openOf (ts : List Tag) (key : String) (n : Nat) : List Nat :=
  (unpaired ts (pairing ts n) n).filter fun o => (tagOf ts o).key == key

theorem openOf_pairwise (ts : List Tag) (key : String) (n : Nat) :
    (openOf ts key n).Pairwise (· > ·) :=
  (unpaired_pairwise ts _ n).filter _

theorem mem_openOf_iff {n o : Nat} : o ∈ openOf ts key n ↔
    (o < n ∧ (tagOf ts o).closing = false ∧ o ∉ (pairing ts n).map Prod.fst) ∧
      (tagOf ts o).key = key := by
  rw [openOf, List.mem_filter, mem_unpaired_iff, beq_iff_eq]

theorem openOf_of_opening {n : Nat} (h : (tagOf ts n).closing = false) :
    openOf ts key (n + 1) =
      if (tagOf ts n).key = key then n :: openOf ts key n else openOf ts key n := by
  rw [openOf, pairing_of_opening h, unpaired_succ, if_pos ⟨h, notMem_fst_pairing ts n⟩,
    List.filter_cons, ← openOf]
  simp only [beq_iff_eq]

theorem pairing_of_closing_head {n : Nat} (h : (tagOf ts n).closing = true) :
    pairing ts (n + 1) =
      pairing ts n ++ ((openOf ts (tagOf ts n).key n).head?.map (·, n)).toList := by
  rw [pairing_of_closing h, openOf, List.head?_filter]

theorem openOf_of_closing {n : Nat} (h : (tagOf ts n).closing = true) :
    openOf ts key (n + 1) =
      if (tagOf ts n).key = key then (openOf ts key n).tail else openOf ts key n := by
  rw [openOf, unpaired_succ, if_neg (by simp [h]), pairing_of_closing_head h]
  cases hhead : openOf ts (tagOf ts n).key n with
  | nil =>
    rw [List.head?_nil, Option.map_none, Option.toList_none, List.append_nil, ← openOf]
    by_cases hkey : (tagOf ts n).key = key
    · rw [if_pos hkey, ← hkey, hhead, List.tail_nil]
    · rw [if_neg hkey]
  | cons o rest =>
    have hmem : o ∈ openOf ts (tagOf ts n).key n := hhead ▸ List.mem_cons_self
    rw [List.head?_cons, Option.map_some, Option.toList_some, unpaired_append_pair,
      List.filter_comm, ← openOf]
    by_cases hkey : (tagOf ts n).key = key
    · have hpairwise := openOf_pairwise ts (tagOf ts n).key n
      rw [hhead, List.pairwise_cons] at hpairwise
      rw [if_pos hkey, ← hkey, hhead, List.tail_cons, List.filter_cons_of_neg (by simp),
        List.filter_eq_self]
      intro i hi
      have hlt := hpairwise.1 i hi
      simp
      omega
    · rw [if_neg hkey, List.filter_eq_self]
      rintro i hi
      -- The tag that is taken has another name.
      have hother : i ≠ o := by
        rintro rfl
        exact hkey ((mem_openOf_iff.mp hmem).2.symm.trans (mem_openOf_iff.mp hi).2)
      simpa using hother

/-- How many tags of a name open, or close, among those from `first` up to `last`. -/
def countOf (ts : List Tag) (closing : Bool) (key : String) (first last : Nat) : Nat :=
  (List.range' first (last - first)).countP fun i =>
    (tagOf ts i).closing == closing && (tagOf ts i).key == key

theorem countOf_self (closing : Bool) (n : Nat) : countOf ts closing key n n = 0 := by
  simp [countOf]

theorem countOf_succ (ts : List Tag) (closing : Bool) (key : String) {first n : Nat} (h : first ≤ n) :
    countOf ts closing key first (n + 1) = countOf ts closing key first n +
      if (tagOf ts n).closing = closing ∧ (tagOf ts n).key = key then 1 else 0 := by
  have hlen : n + 1 - first = n - first + 1 := by omega
  have hlast : first + (n - first) = n := by omega
  rw [countOf, hlen, List.range'_1_concat, hlast, List.countP_append, List.countP_singleton, countOf]
  simp only [Bool.and_eq_true, beq_iff_eq]

/-- Behind tag `o` and up to tag `c`, more tags of its name close than open. -/
def Outnumbers (ts : List Tag) (o c : Nat) : Prop :=
  countOf ts false (tagOf ts o).key (o + 1) (c + 1) <
    countOf ts true (tagOf ts o).key (o + 1) (c + 1)

/-- The first later tag of its name at which the closing tags outnumber the opening ones. -/
structure IsMatch (ts : List Tag) (o c : Nat) : Prop where
  lt : o < c
  lt_length : c < ts.length
  key_eq : (tagOf ts c).key = (tagOf ts o).key
  outnumbers : Outnumbers ts o c
  first : ∀ d, o < d → d < c → (tagOf ts d).key = (tagOf ts o).key → ¬ Outnumbers ts o d

theorem IsMatch.unique {o c c' : Nat} (h : IsMatch ts o c) (h' : IsMatch ts o c') : c = c' := by
  rcases Nat.lt_trichotomy c c' with hlt | heq | hgt
  · exact absurd h.outnumbers (h'.first c h.lt hlt h.key_eq)
  · exact heq
  · exact absurd h'.outnumbers (h.first c' h'.lt hgt h'.key_eq)

/-- Before tag `n`, tag `o` is open and as many tags lie above it on the stack as the opening tags
are ahead, which they have been all along. -/
def StillOpen (ts : List Tag) (o n : Nat) : Prop :=
  ∃ above below, openOf ts (tagOf ts o).key n = above ++ o :: below ∧
    countOf ts false (tagOf ts o).key (o + 1) n =
      countOf ts true (tagOf ts o).key (o + 1) n + above.length ∧
    ∀ d, o < d → d < n → (tagOf ts d).key = (tagOf ts o).key → ¬ Outnumbers ts o d

theorem stillOpen_succ_self {o : Nat} (hopen : (tagOf ts o).closing = false) :
    StillOpen ts o (o + 1) := by
  refine ⟨[], openOf ts (tagOf ts o).key o, ?_, ?_, fun d hod hdo => by omega⟩
  · rw [openOf_of_opening hopen, if_pos rfl, List.nil_append]
  · rw [countOf_self, countOf_self, List.length_nil]

theorem not_outnumbers_succ {o n : Nat}
    (hnone : ∀ d, o < d → d < n → (tagOf ts d).key = (tagOf ts o).key → ¬ Outnumbers ts o d)
    (hnot : ¬ Outnumbers ts o n) :
    ∀ d, o < d → d < n + 1 → (tagOf ts d).key = (tagOf ts o).key → ¬ Outnumbers ts o d := by
  intro d hod hdn hkey
  rcases Nat.lt_succ_iff_lt_or_eq.mp hdn with hlt | rfl
  · exact hnone d hod hlt hkey
  · exact hnot

theorem StillOpen.opening {o n : Nat} (h : StillOpen ts o n) (hon : o < n)
    (hkey : (tagOf ts n).key = (tagOf ts o).key) (hc : (tagOf ts n).closing = false) :
    StillOpen ts o (n + 1) := by
  obtain ⟨above, below, hstack, hcount, hnone⟩ := h
  have hfirst : o + 1 ≤ n := hon
  have hopened := countOf_succ ts false (tagOf ts o).key hfirst
  have hclosed := countOf_succ ts true (tagOf ts o).key hfirst
  rw [if_pos ⟨hc, hkey⟩] at hopened
  rw [if_neg (by simp [hc])] at hclosed
  refine ⟨n :: above, below, ?_, ?_, not_outnumbers_succ hnone ?_⟩
  · rw [openOf_of_opening hc, if_pos hkey, hstack, List.cons_append]
  · rw [List.length_cons]
    omega
  · rw [Outnumbers]
    omega

/-- A closing tag of its name takes the tag on top of an open tag, or else that tag, whose match it
then is. -/
theorem StillOpen.closing {o n : Nat} (h : StillOpen ts o n) (hon : o < n) (hn : n < ts.length)
    (hkey : (tagOf ts n).key = (tagOf ts o).key) (hc : (tagOf ts n).closing = true) :
    StillOpen ts o (n + 1) ∨ (o, n) ∈ pairing ts (n + 1) ∧ IsMatch ts o n := by
  obtain ⟨above, below, hstack, hcount, hnone⟩ := h
  have hfirst : o + 1 ≤ n := hon
  have hopened := countOf_succ ts false (tagOf ts o).key hfirst
  have hclosed := countOf_succ ts true (tagOf ts o).key hfirst
  rw [if_neg (by simp [hc])] at hopened
  rw [if_pos ⟨hc, hkey⟩] at hclosed
  -- With nothing above it, the tag itself is on top and is taken.
  cases above with
  | nil =>
    rw [List.length_nil] at hcount
    refine .inr ⟨?_, hon, hn, hkey, ?_, hnone⟩
    · rw [pairing_of_closing_head hc, hkey, hstack]
      exact List.mem_append_right _ List.mem_cons_self
    · rw [Outnumbers]
      omega
  | cons i above =>
    rw [List.length_cons] at hcount
    refine .inl ⟨above, below, ?_, ?_, not_outnumbers_succ hnone ?_⟩
    · rw [openOf_of_closing hc, if_pos hkey, hstack, List.cons_append, List.tail_cons]
    · omega
    · rw [Outnumbers]
      omega

theorem StillOpen.other {o n : Nat} (h : StillOpen ts o n) (hon : o < n)
    (hkey : (tagOf ts n).key ≠ (tagOf ts o).key) : StillOpen ts o (n + 1) := by
  obtain ⟨above, below, hstack, hcount, hnone⟩ := h
  have hfirst : o + 1 ≤ n := hon
  have hopened := countOf_succ ts false (tagOf ts o).key hfirst
  have hclosed := countOf_succ ts true (tagOf ts o).key hfirst
  rw [if_neg fun h => hkey h.2] at hopened hclosed
  have hsame : openOf ts (tagOf ts o).key (n + 1) = openOf ts (tagOf ts o).key n := by
    cases hc : (tagOf ts n).closing with
    | false => rw [openOf_of_opening hc, if_neg hkey]
    | true => rw [openOf_of_closing hc, if_neg hkey]
  refine ⟨above, below, hsame.trans hstack, by omega, not_outnumbers_succ hnone ?_⟩
  rw [Outnumbers]
  omega

theorem StillOpen.step {o n : Nat} (h : StillOpen ts o n) (hon : o < n) (hn : n < ts.length) :
    StillOpen ts o (n + 1) ∨ (o, n) ∈ pairing ts (n + 1) ∧ IsMatch ts o n := by
  by_cases hkey : (tagOf ts n).key = (tagOf ts o).key
  · cases hc : (tagOf ts n).closing with
    | false => exact .inl (h.opening hon hkey hc)
    | true => exact h.closing hon hn hkey hc
  · exact .inl (h.other hon hkey)

theorem stillOpen_or_closed {o n : Nat} (hopen : (tagOf ts o).closing = false) (hon : o < n)
    (hn : n ≤ ts.length) :
    StillOpen ts o n ∨ ∃ c, (o, c) ∈ pairing ts n ∧ IsMatch ts o c := by
  induction hon with
  | refl => exact .inl (stillOpen_succ_self hopen)
  | @step n hon ih =>
    rcases ih (Nat.le_of_lt hn) with hstill | ⟨c, hpair, hmatch⟩
    · rcases hstill.step hon hn with hstill | hclosed
      · exact .inl hstill
      · exact .inr ⟨n, hclosed⟩
    · exact .inr ⟨c, pairing_subset (Nat.le_succ n) hpair, hmatch⟩

theorem partner?_eq_some_iff_isMatch {o c : Nat} (ho : o < ts.length)
    (hopen : (tagOf ts o).closing = false) : partner? ts o = some c ↔ IsMatch ts o c := by
  obtain ⟨above, below, hstack, -, hnone⟩ | ⟨c', hpair, hmatch⟩ :=
    stillOpen_or_closed hopen ho (Nat.le_refl _)
  · have hmem : o ∈ openOf ts (tagOf ts o).key ts.length := by simp [hstack]
    have hfresh := (mem_openOf_iff.mp hmem).1.2.2
    refine iff_of_false (fun hpartner => hfresh ?_) fun hmatch => ?_
    · exact List.mem_map_of_mem (f := Prod.fst) (partner?_eq_some_iff.mp hpartner)
    · exact hnone c hmatch.lt hmatch.lt_length hmatch.key_eq hmatch.outnumbers
  · rw [partner?_eq_some_iff.mpr hpair, Option.some_inj]
    exact ⟨fun h => h ▸ hmatch, hmatch.unique⟩

/-- At its closing tag a pair lies on top of the stack of its name. -/
theorem head?_openOf_of_mem_pairing {o c n : Nat} (h : (o, c) ∈ pairing ts n) :
    (openOf ts (tagOf ts c).key c).head? = some o := by
  induction n with
  | zero => cases h
  | succ n ih =>
    cases hc : (tagOf ts n).closing with
    | false =>
      rw [pairing_of_opening hc] at h
      exact ih h
    | true =>
      rw [pairing_of_closing_head hc] at h
      rcases List.mem_append.mp h with h | h
      · exact ih h
      · rw [Option.mem_toList, Option.map_eq_some_iff] at h
        obtain ⟨o', hhead, hpair⟩ := h
        obtain ⟨rfl, rfl⟩ := Prod.mk.inj hpair
        exact hhead

theorem lt_of_partner?_of_key_eq {o c o' c' : Nat} (h : partner? ts o = some c)
    (h' : partner? ts o' = some c') (hkey : (tagOf ts o).key = (tagOf ts o').key) (hopens : o < o')
    (hinside : o' < c) : c' < c := by
  have hpair := partner?_eq_some_iff.mp h
  have hpair' := partner?_eq_some_iff.mp h'
  obtain ⟨-, hc, -, -, hkeys⟩ := of_mem_pairing hpair
  obtain ⟨-, -, hopen', -, -⟩ := of_mem_pairing hpair'
  by_cases htaken : o' ∈ (pairing ts c).map Prod.fst
  · obtain ⟨⟨i, c''⟩, hmem, hi⟩ := List.mem_map.mp htaken
    obtain rfl : o' = i := hi.symm
    have hpartner : partner? ts o' = some c'' :=
      partner?_eq_some_iff.mpr (pairing_subset (Nat.le_of_lt hc) hmem)
    obtain rfl : c'' = c' := Option.some.inj (hpartner.symm.trans h')
    exact (of_mem_pairing hmem).2.1
  · -- Were it open still, it would lie on the stack above the tag that is taken.
    have hmem : o' ∈ openOf ts (tagOf ts c).key c :=
      mem_openOf_iff.mpr ⟨⟨hinside, hopen', htaken⟩, hkey.symm.trans hkeys⟩
    obtain ⟨rest, hstack⟩ := List.head?_eq_some_iff.mp (head?_openOf_of_mem_pairing hpair)
    have hpairwise := openOf_pairwise ts (tagOf ts c).key c
    rw [hstack] at hmem hpairwise
    rcases List.mem_cons.mp hmem with heq | hmem
    · omega
    · have hgt := (List.pairwise_cons.mp hpairwise).1 o' hmem
      omega

/-- Tags of one name are paired as brackets are: an opening tag has as partner the first later tag of
its name at which the closing tags since then outnumber the opening ones. A closing tag has no
partner of its own and is that of one opening tag at most, and pairs of one name do not cross. -/
theorem partners_match_brackets (ts : List Tag) :
    (partners ts).size = ts.length ∧
    (∀ o < ts.length, (tagOf ts o).closing = false →
      ∀ c, (partners ts).getD o none = some c ↔ IsMatch ts o c) ∧
    (∀ c, (tagOf ts c).closing = true → (partners ts).getD c none = none) ∧
    (∀ o o' c, (partners ts).getD o none = some c → (partners ts).getD o' none = some c → o = o') ∧
    ∀ o c o' c', (partners ts).getD o none = some c → (partners ts).getD o' none = some c' →
      (tagOf ts o).key = (tagOf ts o').key → ¬ (o < o' ∧ o' < c ∧ c < c') := by
  simp only [getD_partners]
  refine ⟨size_partners ts, fun o ho hopen c => partner?_eq_some_iff_isMatch ho hopen,
    fun c => partner?_of_closing, fun o o' c => eq_of_partner?_eq, ?_⟩
  rintro o c o' c' h h' hkey ⟨hopens, hinside, hcrosses⟩
  have hlt := lt_of_partner?_of_key_eq h h' hkey hopens hinside
  omega

/-- A closing tag without an opening one, then tags of a name in others of it, and across these a pair
of another name. -/
def interleavedTags : List Tag := tags "</b><b>x<i>y<b>z</b></i></b>".toList

theorem partners_match_brackets_interleaved :
    (1 < interleavedTags.length ∧ (tagOf interleavedTags 1).closing = false ∧
      (partners interleavedTags).getD 1 none = some 6 ∧ IsMatch interleavedTags 1 6) ∧
    ((tagOf interleavedTags 0).closing = true ∧ (partners interleavedTags).getD 0 none = none) ∧
    ((partners interleavedTags).getD 3 none = some 4 ∧
      (tagOf interleavedTags 1).key = (tagOf interleavedTags 3).key ∧
      ¬ (1 < 3 ∧ 3 < 6 ∧ 6 < 4) ∧ ∀ o, (partners interleavedTags).getD o none = some 6 → o = 1) := by
  have hlength : 1 < interleavedTags.length := by decide +kernel
  have hopen : (tagOf interleavedTags 1).closing = false := by decide +kernel
  have hstray : (tagOf interleavedTags 0).closing = true := by decide +kernel
  have houter : (partners interleavedTags).getD 1 none = some 6 := by decide +kernel
  have hinner : (partners interleavedTags).getD 3 none = some 4 := by decide +kernel
  have hkey : (tagOf interleavedTags 1).key = (tagOf interleavedTags 3).key := by decide +kernel
  obtain ⟨-, hmatch, hclosing, honce, hnested⟩ := partners_match_brackets interleavedTags
  exact ⟨⟨hlength, hopen, houter, (hmatch 1 hlength hopen 6).mp houter⟩,
    ⟨hstray, hclosing 0 hstray⟩, hinner, hkey, hnested 1 6 3 4 houter hinner hkey,
    fun o ho => honce o 1 6 ho houter⟩

end ExamVariants.Markup
