import ExamVariants.Proofs.Markup.Pairing
import Mathlib.Data.List.Basic

namespace ExamVariants.Markup

/-- The second pair opens inside the first and closes after it. -/
def crosses (p q : Nat × Nat) : Bool := p.1 < q.1 && q.1 < p.2 && p.2 < q.2

/-- Keeps a pair that crosses none of those kept before. -/
def keepPair (ks : List (Nat × Nat)) (p : Nat × Nat) : List (Nat × Nat) :=
  if ks.any (crosses · p) then ks else ks ++ [p]

def select (ps : List (Nat × Nat)) : List (Nat × Nat) := ps.foldl keepPair []

def byOpening (ts : List Tag) : List (Nat × Nat) :=
  (List.range ts.length).filterMap fun o => (partner? ts o).map (o, ·)

def keptPairs (ts : List Tag) : List (Nat × Nat) := select (byOpening ts)

theorem foldl_keepPair_cons (k : Nat × Nat) (ks ps : List (Nat × Nat)) :
    ps.foldl keepPair (k :: ks) = k :: (ps.filter fun p => !crosses k p).foldl keepPair ks := by
  induction ps generalizing ks with
  | nil => rfl
  | cons p ps ih =>
    cases hp : crosses k p with
    | true =>
      have hkeep : keepPair (k :: ks) p = k :: ks := by simp [keepPair, hp]
      rw [List.foldl_cons, hkeep, ih, List.filter_cons_of_neg (by simp [hp])]
    | false =>
      have hkeep : keepPair (k :: ks) p = k :: keepPair ks p := by
        by_cases hany : ks.any (crosses · p) <;> simp [keepPair, hp, hany]
      rw [List.foldl_cons, hkeep, ih, List.filter_cons_of_pos (by simp [hp]), List.foldl_cons]

theorem select_cons (p : Nat × Nat) (ps : List (Nat × Nat)) :
    select (p :: ps) = p :: select (ps.filter fun q => !crosses p q) := by
  have hkeep : keepPair [] p = [p] := by simp [keepPair]
  rw [select, List.foldl_cons, hkeep, foldl_keepPair_cons, select]

theorem select_sublist (ps : List (Nat × Nat)) : (select ps).Sublist ps := by
  suffices h : ∀ ks, (ps.foldl keepPair ks).Sublist (ks ++ ps) from h []
  induction ps with
  | nil => simp
  | cons p ps ih =>
    intro ks
    by_cases hany : ks.any (crosses · p)
    · rw [List.foldl_cons, keepPair, if_pos hany]
      exact (ih ks).trans ((List.sublist_cons_self p ps).append_left ks)
    · have hrest := ih (ks ++ [p])
      rw [List.append_assoc, List.singleton_append] at hrest
      rwa [List.foldl_cons, keepPair, if_neg hany]

theorem select_append {ps qs : List (Nat × Nat)}
    (h : ∀ p ∈ ps, ∀ q ∈ qs, crosses p q = false) : select (ps ++ qs) = select ps ++ select qs := by
  have hkept (ks : List (Nat × Nat)) (hks : ∀ p ∈ ks, ∀ q ∈ qs, crosses p q = false) :
      qs.foldl keepPair ks = ks ++ select qs := by
    induction ks with
    | nil => rfl
    | cons k ks ih =>
      have hall : (qs.filter fun q => !crosses k q) = qs :=
        List.filter_eq_self.mpr fun q hq => by simp [hks k List.mem_cons_self q hq]
      rw [foldl_keepPair_cons, hall, ih fun p hp => hks p (List.mem_cons_of_mem k hp),
        List.cons_append]
  rw [select, List.foldl_append, ← select]
  exact hkept _ fun p hp => h p ((select_sublist ps).subset hp)

/-- The pair that opens at a tag and closes before `last`. -/
def pairAt? (ts : List Tag) (last o : Nat) : Option (Nat × Nat) :=
  ((partner? ts o).filter (· < last)).map (o, ·)

/-- The pairs with both tags among those from `first` up to `last`, by opening tag. -/
def pairsIn (ts : List Tag) (first last : Nat) : List (Nat × Nat) :=
  (List.range' first (last - first)).filterMap (pairAt? ts last)

def keptIn (ts : List Tag) (first last : Nat) : List (Nat × Nat) := select (pairsIn ts first last)

theorem pairAt?_eq_some_iff {ts : List Tag} {last i o c : Nat} :
    pairAt? ts last i = some (o, c) ↔ i = o ∧ c < last ∧ partner? ts o = some c := by
  simp only [pairAt?, Option.map_eq_some_iff, Option.filter_eq_some_iff, decide_eq_true_eq,
    Prod.mk.injEq]
  constructor
  · rintro ⟨c', ⟨hpartner, hlast⟩, rfl, rfl⟩
    exact ⟨rfl, hlast, hpartner⟩
  · rintro ⟨rfl, hlast, hpartner⟩
    exact ⟨c, ⟨hpartner, hlast⟩, rfl, rfl⟩

theorem mem_pairsIn_iff {ts : List Tag} {first last : Nat} {p : Nat × Nat} :
    p ∈ pairsIn ts first last ↔ first ≤ p.1 ∧ p.2 < last ∧ partner? ts p.1 = some p.2 := by
  obtain ⟨o, c⟩ := p
  simp only [pairsIn, List.mem_filterMap, List.mem_range'_1, pairAt?_eq_some_iff]
  constructor
  · rintro ⟨i, hi, rfl, hlast, hpartner⟩
    exact ⟨hi.1, hlast, hpartner⟩
  · rintro ⟨hfirst, hlast, hpartner⟩
    have := lt_of_partner? hpartner
    exact ⟨o, by omega, rfl, hlast, hpartner⟩

theorem mem_keptIn {ts : List Tag} {first last : Nat} {p : Nat × Nat}
    (h : p ∈ keptIn ts first last) : first ≤ p.1 ∧ p.1 < p.2 ∧ p.2 < last := by
  obtain ⟨hfirst, hlast, hpartner⟩ := mem_pairsIn_iff.mp ((select_sublist _).subset h)
  exact ⟨hfirst, lt_of_partner? hpartner, hlast⟩

theorem of_head?_pairsIn {ts : List Tag} {first last o c : Nat}
    (h : (pairsIn ts first last).head? = some (o, c)) :
    first ≤ o ∧ o < c ∧ c < last ∧ partner? ts o = some c := by
  obtain ⟨hfirst, hlast, hpartner⟩ := mem_pairsIn_iff.mp (List.mem_of_head? h)
  exact ⟨hfirst, lt_of_partner? hpartner, hlast, hpartner⟩

theorem keptPairs_eq_keptIn (ts : List Tag) : keptPairs ts = keptIn ts 0 ts.length := by
  have hpairs : byOpening ts = pairsIn ts 0 ts.length := by
    rw [byOpening, pairsIn, List.range_eq_range', Nat.sub_zero]
    apply List.filterMap_congr
    intro o _
    rw [pairAt?]
    cases hc : partner? ts o with
    | none => rfl
    | some c =>
      have := (of_mem_pairing (partner?_eq_some_iff.mp hc)).2.1
      simp [Option.filter, this]
  rw [keptPairs, hpairs, keptIn]

theorem range'_eq_append_cons {first i last : Nat} (hfirst : first ≤ i) (hlast : i < last) :
    List.range' first (last - first) =
      List.range' first (i - first) ++ i :: List.range' (i + 1) (last - (i + 1)) := by
  have hlen : last - first = (i - first) + (last - (i + 1) + 1) := by omega
  have hi : first + 1 * (i - first) = i := by omega
  rw [hlen, ← List.range'_append, hi, List.range'_succ]

theorem filterMap_pairAt?_eq_nil {ts : List Tag} {first last o c : Nat} {rest : List (Nat × Nat)}
    (h : ((List.range' first (o - first)).filterMap (pairAt? ts last) ++ rest).head? =
      some (o, c)) :
    (List.range' first (o - first)).filterMap (pairAt? ts last) = [] := by
  cases hbefore : (List.range' first (o - first)).filterMap (pairAt? ts last) with
  | nil => rfl
  | cons p ps =>
    rw [hbefore] at h
    obtain rfl : p = (o, c) := Option.some.inj h
    obtain ⟨i, hi, hpair⟩ := List.mem_filterMap.mp (hbefore ▸ List.mem_cons_self : (o, c) ∈ _)
    have := (pairAt?_eq_some_iff.mp hpair).1
    have := List.mem_range'_1.mp hi
    omega

/-- Of the pairs that open inside a pair, those that do not cross it close inside it. -/
theorem filter_crosses_pairAt? {ts : List Tag} {last o c i : Nat} (hlast : c < last)
    (hpartner : partner? ts o = some c) (hoi : o < i) (hic : i < c) :
    (pairAt? ts last i).filter (fun q => !crosses (o, c) q) = pairAt? ts c i := by
  rw [pairAt?, pairAt?]
  cases hp : partner? ts i with
  | none => rfl
  | some c' =>
    have hne : c' ≠ c := by
      rintro rfl
      have := eq_of_partner?_eq hp hpartner
      omega
    by_cases hc' : c' < c
    · have hcross : crosses (o, c) (i, c') = false := by simp [crosses]; omega
      simp [Option.filter, hc', Nat.lt_trans hc' hlast, hcross]
    · have hcross : crosses (o, c) (i, c') = true := by simp [crosses]; omega
      by_cases hl' : c' < last <;> simp [Option.filter, hc', hl', hcross]

/-- A span whose first pair is `(o, c)` holds that pair, then those that open inside it, then those
of the span after it. -/
theorem pairsIn_eq_cons {ts : List Tag} {first last o c : Nat}
    (h : (pairsIn ts first last).head? = some (o, c)) :
    ∃ mid, pairsIn ts first last = (o, c) :: (mid ++ pairsIn ts (c + 1) last) ∧
      mid.filter (fun q => !crosses (o, c) q) = pairsIn ts (o + 1) c := by
  obtain ⟨hfirst, hlt, hlast, hpartner⟩ := of_head?_pairsIn h
  have hclosing := (of_mem_pairing (partner?_eq_some_iff.mp hpartner)).2.2.2.1
  have ho : pairAt? ts last o = some (o, c) := pairAt?_eq_some_iff.mpr ⟨rfl, hlast, hpartner⟩
  have hc : pairAt? ts last c = none := by rw [pairAt?, partner?_of_closing hclosing]; rfl
  -- Behind the first pair come the pairs that open inside it and those that open behind it.
  have hsplit : pairsIn ts first last =
      (List.range' first (o - first)).filterMap (pairAt? ts last) ++ (o, c) ::
        ((List.range' (o + 1) (c - (o + 1))).filterMap (pairAt? ts last) ++
          pairsIn ts (c + 1) last) := by
    rw [pairsIn, range'_eq_append_cons hfirst (Nat.lt_trans hlt hlast), List.filterMap_append,
      List.filterMap_cons_some ho, range'_eq_append_cons hlt hlast, List.filterMap_append,
      List.filterMap_cons_none hc, pairsIn]
  rw [hsplit] at h
  refine ⟨(List.range' (o + 1) (c - (o + 1))).filterMap (pairAt? ts last), ?_, ?_⟩
  · rw [hsplit, filterMap_pairAt?_eq_nil h, List.nil_append]
  · rw [List.filter_filterMap, pairsIn]
    apply List.filterMap_congr
    intro i hi
    have hi := List.mem_range'_1.mp hi
    exact filter_crosses_pairAt? hlast hpartner (by omega) (by omega)

/-- The first pair of a span is kept, then what is kept inside it, then what is kept after it. -/
theorem keptIn_eq_cons {ts : List Tag} {first last o c : Nat}
    (h : (pairsIn ts first last).head? = some (o, c)) :
    keptIn ts first last = (o, c) :: (keptIn ts (o + 1) c ++ keptIn ts (c + 1) last) := by
  obtain ⟨mid, hpairs, hmid⟩ := pairsIn_eq_cons h
  have hafter : (pairsIn ts (c + 1) last).filter (fun q => !crosses (o, c) q) =
      pairsIn ts (c + 1) last := by
    apply List.filter_eq_self.mpr
    intro q hq
    have := (mem_pairsIn_iff.mp hq).1
    simp [crosses]
    omega
  have happart : ∀ p ∈ pairsIn ts (o + 1) c, ∀ q ∈ pairsIn ts (c + 1) last, crosses p q = false := by
    intro p hp q hq
    have := (mem_pairsIn_iff.mp hp).2.1
    have := (mem_pairsIn_iff.mp hq).1
    simp [crosses]
    omega
  rw [keptIn, hpairs, select_cons, List.filter_append, hmid, hafter, select_append happart, keptIn,
    keptIn]

theorem keptIn_eq_nil {ts : List Tag} {first last : Nat}
    (h : (pairsIn ts first last).head? = none) : keptIn ts first last = [] := by
  rw [keptIn, List.head?_eq_none_iff.mp h]
  rfl

/-- Spans of tags by recursion: a span without a pair, or one split by its first pair into the span
inside the pair and the span after it. -/
theorem span_induction (ts : List Tag) {motive : Nat → Nat → Prop}
    (plain : ∀ first last, (pairsIn ts first last).head? = none → motive first last)
    (split : ∀ first last o c, (pairsIn ts first last).head? = some (o, c) →
      motive (o + 1) c → motive (c + 1) last → motive first last)
    (first last : Nat) : motive first last := by
  induction hn : last - first using Nat.strongRecOn generalizing first last with
  | ind n ih =>
    cases hhead : (pairsIn ts first last).head? with
    | none => exact plain first last hhead
    | some p =>
      obtain ⟨o, c⟩ := p
      obtain ⟨hfirst, hlt, hlast, -⟩ := of_head?_pairsIn hhead
      exact split first last o c hhead (ih (c - (o + 1)) (by omega) _ _ rfl)
        (ih (last - (c + 1)) (by omega) _ _ rfl)

theorem keptIn_pairwise (ts : List Tag) (first last : Nat) :
    (keptIn ts first last).Pairwise fun p q => p.1 < q.1 ∧ (q.2 < p.2 ∨ p.2 < q.1) := by
  induction first, last using span_induction ts with
  | plain first last h => rw [keptIn_eq_nil h]; exact List.Pairwise.nil
  | split first last o c h inside after =>
    rw [keptIn_eq_cons h]
    refine List.pairwise_cons.mpr ⟨?_, List.pairwise_append.mpr ⟨inside, after, ?_⟩⟩
    · intro q hq
      have := of_head?_pairsIn h
      dsimp only
      rcases List.mem_append.mp hq with hq | hq
      · have := mem_keptIn hq
        omega
      · have := mem_keptIn hq
        omega
    · intro p hp q hq
      have := mem_keptIn hp
      have := mem_keptIn hq
      omega

end ExamVariants.Markup
