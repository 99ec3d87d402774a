import ExamVariants.Markup.Pairing
import Mathlib.Data.List.Nodup

namespace ExamVariants.Markup

def tagOf (ts : List Tag) (i : Nat) : Tag := ts.getD i default

/-- The opening tags among the first `n` that are in no pair, latest first. -/
def unpaired (ts : List Tag) (ps : List (Nat × Nat)) (n : Nat) : List Nat :=
  (List.range n).reverse.filter fun o => !(tagOf ts o).closing && !(ps.map Prod.fst).contains o

/-- The pairs that the closing tags among the first `n` make, each with the latest unpaired opening
tag of its name. -/
def pairing (ts : List Tag) : Nat → List (Nat × Nat)
  | 0 => []
  | c + 1 =>
    let ps := pairing ts c
    if (tagOf ts c).closing then
      let partner := (unpaired ts ps c).find? fun o => (tagOf ts o).key == (tagOf ts c).key
      ps ++ (partner.map (·, c)).toList
    else ps

theorem mem_unpaired_iff {ts : List Tag} {ps : List (Nat × Nat)} {n o : Nat} :
    o ∈ unpaired ts ps n ↔ o < n ∧ (tagOf ts o).closing = false ∧ o ∉ ps.map Prod.fst := by
  simp [unpaired]

theorem nodup_unpaired (ts : List Tag) (ps : List (Nat × Nat)) (n : Nat) :
    (unpaired ts ps n).Nodup :=
  (List.nodup_reverse.mpr List.nodup_range).filter _

theorem pairing_of_opening {ts : List Tag} {n : Nat} (h : (tagOf ts n).closing = false) :
    pairing ts (n + 1) = pairing ts n := by
  simp [pairing, h]

theorem pairing_of_closing {ts : List Tag} {n : Nat} (h : (tagOf ts n).closing = true) :
    pairing ts (n + 1) = pairing ts n ++ (((unpaired ts (pairing ts n) n).find? fun o =>
      (tagOf ts o).key == (tagOf ts n).key).map (·, n)).toList := by
  simp [pairing, h]

theorem pairing_succ_cases (ts : List Tag) (n : Nat) :
    pairing ts (n + 1) = pairing ts n ∨ ∃ o, pairing ts (n + 1) = pairing ts n ++ [(o, n)] ∧
      o < n ∧ (tagOf ts o).closing = false ∧ (tagOf ts n).closing = true ∧
      (tagOf ts o).key = (tagOf ts n).key ∧ o ∉ (pairing ts n).map Prod.fst := by
  cases hn : (tagOf ts n).closing with
  | false => exact Or.inl (pairing_of_opening hn)
  | true =>
    rw [pairing_of_closing hn]
    cases hfind : (unpaired ts (pairing ts n) n).find? _ with
    | none => exact Or.inl (List.append_nil _)
    | some o =>
      obtain ⟨hlt, hopen, hfresh⟩ := mem_unpaired_iff.mp (List.mem_of_find?_eq_some hfind)
      have hkey : (tagOf ts o).key = (tagOf ts n).key := by simpa using List.find?_some hfind
      exact Or.inr ⟨o, rfl, hlt, hopen, rfl, hkey, hfresh⟩

theorem of_mem_pairing {ts : List Tag} {n o c : Nat} (h : (o, c) ∈ pairing ts n) :
    o < c ∧ c < n ∧ (tagOf ts o).closing = false ∧ (tagOf ts c).closing = true ∧
      (tagOf ts o).key = (tagOf ts c).key := by
  induction n with
  | zero => cases h
  | succ n ih =>
    rcases pairing_succ_cases ts n with hsame | ⟨o', hnew, hlt, hopen, hclose, hkey, -⟩
    · rw [hsame] at h
      exact ⟨(ih h).1, Nat.lt_succ_of_lt (ih h).2.1, (ih h).2.2⟩
    · rw [hnew] at h
      rcases List.mem_append.mp h with h | h
      · exact ⟨(ih h).1, Nat.lt_succ_of_lt (ih h).2.1, (ih h).2.2⟩
      · obtain ⟨rfl, rfl⟩ := Prod.mk.inj (List.mem_singleton.mp h)
        exact ⟨hlt, Nat.lt_succ_self _, hopen, hclose, hkey⟩

theorem notMem_fst_pairing (ts : List Tag) (n : Nat) : n ∉ (pairing ts n).map Prod.fst := by
  intro hmem
  obtain ⟨⟨o, c⟩, hp, rfl⟩ := List.mem_map.mp hmem
  have hpair := of_mem_pairing hp
  omega

theorem nodup_fst_pairing (ts : List Tag) (n : Nat) : ((pairing ts n).map Prod.fst).Nodup := by
  induction n with
  | zero => exact List.nodup_nil
  | succ n ih =>
    rcases pairing_succ_cases ts n with hsame | ⟨o, hnew, -, -, -, -, hfresh⟩
    · rwa [hsame]
    · rw [hnew, List.map_append]
      exact ih.append (List.nodup_singleton o) (by simpa using hfresh)

theorem nodup_snd_pairing (ts : List Tag) (n : Nat) : ((pairing ts n).map Prod.snd).Nodup := by
  induction n with
  | zero => exact List.nodup_nil
  | succ n ih =>
    rcases pairing_succ_cases ts n with hsame | ⟨o, hnew, -⟩
    · rwa [hsame]
    · have hfresh : n ∉ (pairing ts n).map Prod.snd := by
        intro hmem
        obtain ⟨⟨o', c⟩, hp, rfl⟩ := List.mem_map.mp hmem
        exact absurd (of_mem_pairing hp).2.1 (Nat.lt_irrefl _)
      rw [hnew, List.map_append]
      exact ih.append (List.nodup_singleton n) (by simpa using hfresh)

theorem closeLatest?_eq (key : String) (l : List (String × Nat)) :
    closeLatest? key l = (l.find? (·.1 == key)).map fun x => (x.2, l.eraseP (·.1 == key)) := by
  induction l with
  | nil => rfl
  | cons x l ih =>
    obtain ⟨k, o⟩ := x
    by_cases hk : k = key
    · simp [closeLatest?, hk]
    · have hk' : (k == key) = false := by simpa using hk
      rw [closeLatest?, if_neg hk, ih, List.find?_cons_of_neg (by simp [hk']), Option.map_map]
      simp [hk', Function.comp_def]

/-- Of a list without repeats, dropping the first match drops exactly the element found. -/
theorem eraseP_eq_filter {os : List Nat} {p : Nat → Bool} {o : Nat} (hnodup : os.Nodup)
    (hfind : os.find? p = some o) : os.eraseP p = os.filter (· != o) := by
  induction os with
  | nil => cases hfind
  | cons x os ih =>
    obtain ⟨hx, hos⟩ := List.nodup_cons.mp hnodup
    by_cases hp : p x
    · obtain rfl : x = o := by simpa [List.find?_cons_of_pos hp] using hfind
      have hrest : os.filter (· != x) = os := by
        apply List.filter_eq_self.mpr
        intro y hy
        exact bne_iff_ne.mpr fun h => hx (h ▸ hy)
      rw [List.eraseP_cons_of_pos hp, List.filter_cons_of_neg (by simp), hrest]
    · rw [List.find?_cons_of_neg hp] at hfind
      have hne : x ≠ o := fun h => hx (h ▸ List.mem_of_find?_eq_some hfind)
      rw [List.eraseP_cons_of_neg hp, List.filter_cons_of_pos (by simpa using hne), ih hos hfind]

/-- The open tags on the stack before tag `n`. -/
def pendingAt (ts : List Tag) (n : Nat) : List (String × Nat) :=
  (unpaired ts (pairing ts n) n).map fun o => ((tagOf ts o).key, o)

theorem unpaired_succ (ts : List Tag) (ps : List (Nat × Nat)) (n : Nat) :
    unpaired ts ps (n + 1) =
      if (tagOf ts n).closing = false ∧ n ∉ ps.map Prod.fst then n :: unpaired ts ps n
      else unpaired ts ps n := by
  have hcond : (!(tagOf ts n).closing && !(ps.map Prod.fst).contains n) = true ↔
      (tagOf ts n).closing = false ∧ n ∉ ps.map Prod.fst := by simp
  rw [unpaired, List.range_succ, List.reverse_append, List.reverse_singleton, List.singleton_append,
    List.filter_cons]
  simp only [hcond]
  rfl

theorem unpaired_append_pair (ts : List Tag) (ps : List (Nat × Nat)) (o c n : Nat) :
    unpaired ts (ps ++ [(o, c)]) n = (unpaired ts ps n).filter (· != o) := by
  rw [unpaired, unpaired, List.filter_filter]
  apply List.filter_congr
  intro x _
  grind

theorem pendingAt_of_opening {ts : List Tag} {n : Nat} (h : (tagOf ts n).closing = false) :
    pendingAt ts (n + 1) = ((tagOf ts n).key, n) :: pendingAt ts n := by
  rw [pendingAt, pairing_of_opening h, unpaired_succ, if_pos ⟨h, notMem_fst_pairing ts n⟩,
    List.map_cons, pendingAt]

theorem closeLatest?_pendingAt {ts : List Tag} {n : Nat} (h : (tagOf ts n).closing = true) :
    closeLatest? (tagOf ts n).key (pendingAt ts n) =
      ((unpaired ts (pairing ts n) n).find? fun o => (tagOf ts o).key == (tagOf ts n).key).map
        fun o => (o, pendingAt ts (n + 1)) := by
  rw [closeLatest?_eq, pendingAt, List.find?_map, Option.map_map]
  apply Option.map_congr
  intro o ho
  change (unpaired ts (pairing ts n) n).find? (fun o => (tagOf ts o).key == (tagOf ts n).key) =
    some o at ho
  have hpairs : pairing ts (n + 1) = pairing ts n ++ [(o, n)] := by
    rw [pairing_of_closing h, ho, Option.map_some, Option.toList_some]
  -- The stack drops the entry that it found, which is the only one with this index.
  have herase := eraseP_eq_filter (nodup_unpaired ts (pairing ts n) n) ho
  rw [pendingAt, hpairs, unpaired_succ, if_neg (by simp [h]), unpaired_append_pair, ← herase]
  simp [List.eraseP_map, Function.comp_def]

theorem pendingAt_of_unmatched {ts : List Tag} {n : Nat} (h : (tagOf ts n).closing = true)
    (hnone : ((unpaired ts (pairing ts n) n).find? fun o =>
      (tagOf ts o).key == (tagOf ts n).key) = none) :
    pairing ts (n + 1) = pairing ts n ∧ pendingAt ts (n + 1) = pendingAt ts n := by
  have hpairs : pairing ts (n + 1) = pairing ts n := by
    rw [pairing_of_closing h, hnone, Option.map_none, Option.toList_none, List.append_nil]
  refine ⟨hpairs, ?_⟩
  rw [pendingAt, hpairs, unpaired_succ, if_neg (by simp [h]), pendingAt]

/-- From any tag on, the stack adds the pairs that are still to be made. -/
theorem pairing_append_pairsFrom {ts rest : List Tag} {n : Nat} (h : ts.drop n = rest)
    (hn : n ≤ ts.length) :
    pairing ts n ++ pairsFrom n (pendingAt ts n) rest = pairing ts ts.length := by
  induction rest generalizing n with
  | nil =>
    have hlen : ts.length ≤ n := List.drop_eq_nil_iff.mp h
    obtain rfl : n = ts.length := Nat.le_antisymm hn hlen
    rw [pairsFrom, List.append_nil]
  | cons t rest ih =>
    have hlt : n < ts.length := by
      by_contra hge
      rw [List.drop_eq_nil_of_le (Nat.le_of_not_lt hge)] at h
      cases h
    obtain ⟨ht, hdrop⟩ : ts[n] = t ∧ ts.drop (n + 1) = rest := by
      rw [List.drop_eq_getElem_cons hlt] at h
      exact List.cons.inj h
    obtain rfl : tagOf ts n = t := by simp [← ht, tagOf, hlt]
    have hnext := ih hdrop hlt
    -- Both sides take the tag at `n`; what is pending then is `pendingAt ts (n + 1)`.
    cases hc : (tagOf ts n).closing with
    | false =>
      rw [pairsFrom, hc, if_neg (by simp), ← pendingAt_of_opening hc, ← pairing_of_opening hc]
      exact hnext
    | true =>
      rw [pairsFrom, hc, if_pos rfl, closeLatest?_pendingAt hc]
      cases hfind : (unpaired ts (pairing ts n) n).find? _ with
      | none =>
        obtain ⟨hpairs, hpending⟩ := pendingAt_of_unmatched hc hfind
        rw [Option.map_none, ← hpairs, ← hpending]
        exact hnext
      | some o =>
        rw [pairing_of_closing hc, hfind, List.append_assoc] at hnext
        exact hnext

theorem pairs_eq_pairing (ts : List Tag) : pairs ts = pairing ts ts.length := by
  have h : pairing ts 0 ++ pairsFrom 0 (pendingAt ts 0) ts = pairing ts ts.length :=
    pairing_append_pairsFrom List.drop_zero (Nat.zero_le _)
  simpa [pairing, pendingAt, unpaired, pairs] using h

theorem unpaired_pairwise (ts : List Tag) (ps : List (Nat × Nat)) (n : Nat) :
    (unpaired ts ps n).Pairwise (· > ·) :=
  (List.pairwise_reverse.mpr List.pairwise_lt_range).filter _

theorem pairing_subset {ts : List Tag} {m n : Nat} (h : m ≤ n) : pairing ts m ⊆ pairing ts n := by
  induction h with
  | refl => exact List.Subset.refl _
  | @step n _ ih =>
    rcases pairing_succ_cases ts n with hsame | ⟨o, hnew, -⟩
    · rwa [hsame]
    · rw [hnew]
      exact List.subset_append_of_subset_left _ ih

theorem le_of_find?_eq_some {os : List Nat} (hos : os.Pairwise (· > ·)) {p : Nat → Bool} {i o : Nat}
    (hfind : os.find? p = some o) (hi : i ∈ os) (hp : p i = true) : i ≤ o := by
  obtain ⟨-, before, after, rfl, hbefore⟩ := List.find?_eq_some_iff_append.mp hfind
  rcases List.mem_append.mp hi with hi | hi
  · have hnot := hbefore i hi
    rw [hp] at hnot
    cases hnot
  · have hafter := (List.pairwise_cons.mp (List.pairwise_append.mp hos).2.1).1
    rcases List.mem_cons.mp hi with rfl | hi
    · exact Nat.le_refl i
    · exact Nat.le_of_lt (hafter i hi)

/-- From an opening tag to a later closing tag of its name there is a pair: that of the opening tag,
or one that opens behind it and ends at the closing tag. -/
theorem exists_mem_pairing_between {ts : List Tag} {i j : Nat} (hij : i < j)
    (hopen : (tagOf ts i).closing = false) (hclose : (tagOf ts j).closing = true)
    (hkey : (tagOf ts i).key = (tagOf ts j).key) :
    ∃ o c, i ≤ o ∧ c ≤ j ∧ (o, c) ∈ pairing ts (j + 1) := by
  by_cases htaken : i ∈ (pairing ts j).map Prod.fst
  · obtain ⟨⟨o, c⟩, hpair, rfl⟩ := List.mem_map.mp htaken
    have hcj := (of_mem_pairing hpair).2.1
    exact ⟨o, c, Nat.le_refl o, Nat.le_of_lt hcj, pairing_subset (Nat.le_succ j) hpair⟩
  · have hi : i ∈ unpaired ts (pairing ts j) j := mem_unpaired_iff.mpr ⟨hij, hopen, htaken⟩
    have hsame : ((tagOf ts i).key == (tagOf ts j).key) = true := beq_iff_eq.mpr hkey
    cases hfind : (unpaired ts (pairing ts j) j).find? fun o =>
        (tagOf ts o).key == (tagOf ts j).key with
    | none => exact absurd hsame (List.find?_eq_none.mp hfind i hi)
    | some o =>
      refine ⟨o, j, le_of_find?_eq_some (unpaired_pairwise ts _ j) hfind hi hsame, Nat.le_refl j, ?_⟩
      rw [pairing_of_closing hclose, hfind]
      exact List.mem_append_right _ List.mem_cons_self

/-- The closing tag that a tag is paired with. -/
def partner? (ts : List Tag) (o : Nat) : Option Nat :=
  ((pairing ts ts.length).find? (·.1 == o)).map Prod.snd

theorem find?_fst_eq_some {ps : List (Nat × Nat)} {o c : Nat} (h : (ps.map Prod.fst).Nodup)
    (hmem : (o, c) ∈ ps) : ps.find? (·.1 == o) = some (o, c) := by
  induction ps with
  | nil => cases hmem
  | cons p ps ih =>
    obtain ⟨hp, hps⟩ := List.nodup_cons.mp h
    rcases List.mem_cons.mp hmem with rfl | hmem
    · simp
    · have hne : p.1 ≠ o := fun h => hp (h ▸ List.mem_map_of_mem hmem)
      rw [List.find?_cons_of_neg (by simpa using hne), ih hps hmem]

theorem partner?_eq_some_iff {ts : List Tag} {o c : Nat} :
    partner? ts o = some c ↔ (o, c) ∈ pairing ts ts.length := by
  constructor
  · intro h
    obtain ⟨⟨o', c'⟩, hfind, rfl⟩ := Option.map_eq_some_iff.mp h
    have ho : o' = o := by simpa using List.find?_some hfind
    exact ho ▸ List.mem_of_find?_eq_some hfind
  · intro h
    rw [partner?, find?_fst_eq_some (nodup_fst_pairing ts ts.length) h, Option.map_some]

theorem eq_of_partner?_eq {ts : List Tag} {o o' c : Nat} (h : partner? ts o = some c)
    (h' : partner? ts o' = some c) : o = o' := by
  have hinj := List.inj_on_of_nodup_map (nodup_snd_pairing ts ts.length)
    (partner?_eq_some_iff.mp h) (partner?_eq_some_iff.mp h') rfl
  exact congrArg Prod.fst hinj

theorem lt_of_partner? {ts : List Tag} {o c : Nat} (h : partner? ts o = some c) : o < c :=
  (of_mem_pairing (partner?_eq_some_iff.mp h)).1

theorem partner?_of_closing {ts : List Tag} {c : Nat} (h : (tagOf ts c).closing = true) :
    partner? ts c = none := by
  rw [Option.eq_none_iff_forall_ne_some]
  intro c' hc'
  have := (of_mem_pairing (partner?_eq_some_iff.mp hc')).2.2.1
  rw [h] at this
  cases this

theorem getD_foldl_set {ps : List (Nat × Nat)} {a : Array (Option Nat)} {o : Nat}
    (h : (ps.map Prod.fst).Nodup) (hsize : ∀ p ∈ ps, p.1 < a.size) :
    (ps.foldl (fun a (o, c) => a.setIfInBounds o (some c)) a).getD o none =
      ((ps.find? (·.1 == o)).map Prod.snd).or (a.getD o none) := by
  induction ps generalizing a with
  | nil => simp
  | cons p ps ih =>
    obtain ⟨hp, hps⟩ := List.nodup_cons.mp h
    have hp_lt := hsize p List.mem_cons_self
    have hrest : ∀ q ∈ ps, q.1 < (a.setIfInBounds p.1 (some p.2)).size := by
      intro q hq
      rw [Array.size_setIfInBounds]
      exact hsize q (List.mem_cons_of_mem p hq)
    rw [List.foldl_cons, ih hps hrest]
    by_cases ho : p.1 = o
    · have hnone : ps.find? (·.1 == o) = none := by
        refine List.find?_eq_none.mpr fun q hq hqo => hp ?_
        rw [ho, ← beq_iff_eq.mp hqo]
        exact List.mem_map_of_mem hq
      rw [hnone, List.find?_cons_of_pos (by simpa using ho)]
      simp [← ho, hp_lt]
    · rw [List.find?_cons_of_neg (by simpa using ho)]
      simp [ho]

theorem getD_partners (ts : List Tag) (o : Nat) : (partners ts).getD o none = partner? ts o := by
  have hsize : ∀ p ∈ pairing ts ts.length,
      p.1 < (Array.replicate ts.length (none : Option Nat)).size := by
    intro p hp
    have := of_mem_pairing (o := p.1) (c := p.2) hp
    rw [Array.size_replicate]
    omega
  rw [partners, pairs_eq_pairing, getD_foldl_set (nodup_fst_pairing ts ts.length) hsize, partner?]
  by_cases ho : o < ts.length <;> simp [ho]

end ExamVariants.Markup
