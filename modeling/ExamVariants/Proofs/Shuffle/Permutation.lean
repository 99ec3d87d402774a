import ExamVariants.Proofs.Generator.Rejection
import ExamVariants.Proofs.Shuffle.Order
import Mathlib.Data.Fintype.Perm
import Mathlib.Data.Set.Card

namespace ExamVariants.Shuffle

variable {α : Type} {n : Nat}

/-- One partner for every position from the last of `n` down to the second, each at most its
position. -/
def partnerLists (n : Nat) : Set (List Nat) := {js | js.length = n - 1 ∧ SwapsWithin n js}

/-- An index up to each of the positions, drawn in their order. -/
def draws : List Nat → Generator → List Nat × Generator
  | [], g => ([], g)
  | i :: positions, g =>
    let (j, h) := g.nextIndex (i + 1)
    let (js, k) := draws positions h
    (j :: js, k)

/-- The swap of two positions; a position out of range is left alone. -/
def transposition (n i j : Nat) : Equiv.Perm (Fin n) :=
  if h : i < n ∧ j < n then Equiv.swap ⟨i, h.1⟩ ⟨j, h.2⟩ else 1

/-- The swaps that the partners drive, as one permutation: each position of the result takes the
item at its image. -/
def permutation (n : Nat) : List Nat → Equiv.Perm (Fin n)
  | [] => 1
  | j :: js => transposition n (js.length + 1) j * permutation n js

theorem transposition_of_lt {i j : Nat} (hi : i < n) (hj : j < n) :
    transposition n i j = Equiv.swap ⟨i, hi⟩ ⟨j, hj⟩ := dif_pos ⟨hi, hj⟩

theorem swapIfInBounds_ofFn (xs : Fin n → α) (i j : Nat) :
    (Array.ofFn xs).swapIfInBounds i j = Array.ofFn (xs ∘ transposition n i j) := by
  by_cases h : i < n ∧ j < n
  · rw [transposition_of_lt h.1 h.2]
    refine Array.ext (by simp) fun k _ _ => ?_
    simp only [Array.getElem_swapIfInBounds, Array.getElem_ofFn, Array.size_ofFn,
      Function.comp_apply, Equiv.swap_apply_def, Fin.mk.injEq, h, and_true]
    split_ifs <;> rfl
  · rw [transposition, dif_neg h, Equiv.Perm.coe_one, Function.comp_id]
    refine Array.ext (by simp) fun k hk _ => ?_
    rw [Array.size_swapIfInBounds, Array.size_ofFn] at hk
    simp only [Array.getElem_swapIfInBounds, Array.getElem_ofFn, Array.size_ofFn]
    rw [dif_neg (by omega), dif_neg (by omega)]

theorem rearrange_ofFn (js : List Nat) (xs : Fin n → α) :
    rearrange js (Array.ofFn xs) = Array.ofFn (xs ∘ permutation n js) := by
  induction js generalizing xs with
  | nil => rfl
  | cons j js ih =>
    rw [rearrange, swapIfInBounds_ofFn, ih, permutation, Equiv.Perm.coe_mul, Function.comp_assoc]

theorem shuffle_ofFn (g : Generator) (xs : Fin n → α) :
    shuffle g (Array.ofFn xs) =
      (Array.ofFn (xs ∘ permutation n (partners (n - 1) g).1), (partners (n - 1) g).2) := by
  simp only [shuffle, Array.size_ofFn, rearrange_ofFn]

theorem shuffled_ofFn (seed : Int64) (xs : Fin n → α) :
    shuffled (List.ofFn xs) seed =
      List.ofFn (xs ∘ permutation n (partners (n - 1) (Generator.ofSeed seed)).1) := by
  rw [shuffled, List.toArray_ofFn, shuffle_ofFn, Array.toList_ofFn]

theorem partners_mem_partnerLists (n : Nat) (g : Generator) :
    (partners (n - 1) g).1 ∈ partnerLists n := by
  refine ⟨length_partners _ g, ?_⟩
  cases n with
  | zero => trivial
  | succ n => exact swapsWithin_partners n g

theorem partners_eq_draws (n : Nat) (g : Generator) :
    partners (n - 1) g = draws (List.range' 1 (n - 1)).reverse g := by
  induction n - 1 generalizing g with
  | zero => rfl
  | succ m ih =>
    -- The last position comes first.
    have hlast : (List.range' 1 (m + 1)).reverse = (m + 1) :: (List.range' 1 m).reverse := by
      rw [List.range'_1_concat, List.reverse_append, List.reverse_singleton, Nat.add_comm 1 m]
      rfl
    simp only [partners, hlast, draws, ih]

theorem swap_apply_of_lt {a b p : Fin n} (ha : a < p) (hb : b < p) : Equiv.swap a b p = p :=
  Equiv.swap_apply_of_ne_of_ne ha.ne' hb.ne'

/-- The positions behind the swaps stay. -/
theorem permutation_apply_of_lt {js : List Nat} (h : SwapsWithin n js) {p : Fin n}
    (hp : js.length < p.val) : permutation n js p = p := by
  induction js with
  | nil => rfl
  | cons j js ih =>
    obtain ⟨hj, hlength, hrest⟩ := h
    rw [List.length_cons] at hp
    have hjp : j < p.val := by omega
    rw [permutation, Equiv.Perm.mul_apply, ih hrest (by omega),
      transposition_of_lt hlength (hjp.trans p.isLt), swap_apply_of_lt hp hjp]

theorem permutation_apply_last {j : Nat} {js : List Nat} (h : SwapsWithin n (j :: js)) :
    (permutation n (j :: js) ⟨js.length + 1, h.2.1⟩).val = j := by
  obtain ⟨hj, hlength, hrest⟩ := h
  rw [permutation, Equiv.Perm.mul_apply, permutation_apply_of_lt hrest (Nat.lt_succ_self _),
    transposition_of_lt hlength (by omega), Equiv.swap_apply_left]

theorem eq_of_permutation_eq {js ks : List Nat} (hjs : SwapsWithin n js) (hks : SwapsWithin n ks)
    (hlength : js.length = ks.length) (h : permutation n js = permutation n ks) : js = ks := by
  induction js generalizing ks with
  | nil => exact (List.length_eq_zero_iff.mp hlength.symm).symm
  | cons j js ih =>
    cases ks with
    | nil => cases hlength
    | cons k ks =>
      have hrest : js.length = ks.length := Nat.succ.inj hlength
      obtain rfl : j = k := by
        have hj := permutation_apply_last hjs
        have hk := permutation_apply_last hks
        simp only [← hrest] at hk
        rw [← hj, ← hk, h]
      rw [permutation, permutation, hrest] at h
      rw [ih hjs.2.2 hks.2.2 hrest (mul_left_cancel h)]

theorem apply_le_of_stays {m : Nat} {σ : Equiv.Perm (Fin n)} (hσ : ∀ p : Fin n, m < p.val → σ p = p)
    {p : Fin n} (hp : p.val ≤ m) : (σ p).val ≤ m := by
  by_contra hlt
  have hstays := hσ (σ p) (by omega)
  rw [σ.injective hstays] at hlt
  exact hlt hp

/-- A permutation that moves none but the first positions is driven by partners for these. -/
theorem exists_permutation_eq {m : Nat} (hm : m ≤ n - 1) (σ : Equiv.Perm (Fin n))
    (hσ : ∀ p : Fin n, m < p.val → σ p = p) :
    ∃ js, js.length = m ∧ SwapsWithin n js ∧ permutation n js = σ := by
  induction m generalizing σ with
  | zero =>
    refine ⟨[], rfl, trivial, Equiv.ext fun p => ?_⟩
    rcases Nat.eq_zero_or_pos p.val with hp | hp
    · have himage := apply_le_of_stays hσ hp.le
      exact Fin.ext (by rw [permutation, Equiv.Perm.one_apply]; omega)
    · rw [hσ p hp, permutation, Equiv.Perm.one_apply]
  | succ m ih =>
    have hlast : m + 1 < n := by omega
    have hle : (σ ⟨m + 1, hlast⟩).val ≤ m + 1 := apply_le_of_stays hσ le_rfl
    -- The last position goes home, and so the rest moves one position less.
    have hstays (p : Fin n) (hp : m < p.val) :
        (Equiv.swap ⟨m + 1, hlast⟩ (σ ⟨m + 1, hlast⟩) * σ) p = p := by
      rw [Equiv.Perm.mul_apply]
      rcases Nat.lt_or_eq_of_le (Nat.succ_le_of_lt hp) with hp' | hp'
      · rw [hσ p hp', swap_apply_of_lt hp' (Nat.lt_of_le_of_lt hle hp')]
      · obtain rfl : p = ⟨m + 1, hlast⟩ := Fin.ext hp'.symm
        rw [Equiv.swap_apply_right]
    obtain ⟨js, hlength, hwithin, hjs⟩ := ih (by omega) _ hstays
    subst hlength
    refine ⟨(σ ⟨js.length + 1, hlast⟩).val :: js, rfl, ⟨hle, hlast, hwithin⟩, ?_⟩
    rw [permutation, hjs, transposition_of_lt hlast (Fin.isLt _), Equiv.swap_mul_self_mul]

theorem permutation_bijOn (n : Nat) : Set.BijOn (permutation n) (partnerLists n) Set.univ := by
  refine ⟨Set.mapsTo_univ _ _, ?_, ?_⟩
  · intro js hjs ks hks h
    exact eq_of_permutation_eq hjs.2 hks.2 (hjs.1.trans hks.1.symm) h
  · intro σ _
    obtain ⟨js, hlength, hwithin, hjs⟩ := exists_permutation_eq le_rfl σ fun p hp => by omega
    exact ⟨js, ⟨hlength, hwithin⟩, hjs⟩

theorem ncard_partnerLists (n : Nat) : (partnerLists n).ncard = n.factorial := by
  rw [(permutation_bijOn n).ncard_eq, Set.ncard_univ, Nat.card_eq_fintype_card, Fintype.card_perm,
    Fintype.card_fin]

/-- Whatever the items are, a shuffle of `n` of them applies the permutation of its partners, which
are drawn for the positions from the last down to the second and hang on `n` and on the state alone;
so it commutes with every change of the items and keeps each of them once. The lists of partners in
range stand for all permutations, one list for each. -/
theorem shuffles_reorder_fairly (n : Nat) :
    (∀ g : Generator, partners (n - 1) g = draws (List.range' 1 (n - 1)).reverse g) ∧
    (∀ (js : List Nat) {α : Type} (xs : Fin n → α),
      rearrange js (Array.ofFn xs) = Array.ofFn (xs ∘ permutation n js)) ∧
    (∀ g : Generator, (partners (n - 1) g).1 ∈ partnerLists n ∧
      ∀ {α : Type} (xs : Fin n → α), shuffle g (Array.ofFn xs) =
        (Array.ofFn (xs ∘ permutation n (partners (n - 1) g).1), (partners (n - 1) g).2)) ∧
    (∀ (seed : Int64) {α : Type} (xs : Fin n → α), shuffled (List.ofFn xs) seed =
      List.ofFn (xs ∘ permutation n (partners (n - 1) (Generator.ofSeed seed)).1)) ∧
    (∀ (g : Generator) {α β : Type} (f : α → β) (xs : Array α),
      shuffle g (xs.map f) = ((shuffle g xs).1.map f, (shuffle g xs).2)) ∧
    (∀ (g : Generator) {α : Type} (xs : Array α), (shuffle g xs).1.Perm xs) ∧
    Set.BijOn (permutation n) (partnerLists n) Set.univ ∧ (partnerLists n).ncard = n.factorial := by
  refine ⟨partners_eq_draws n, fun js => rearrange_ofFn js,
    fun g => ⟨partners_mem_partnerLists n g, shuffle_ofFn g⟩, fun seed => shuffled_ofFn seed,
    ?_, ?_, permutation_bijOn n, ncard_partnerLists n⟩
  · intro g α β f xs
    exact shuffle_map f g xs
  · intro g α xs
    exact perm_rearrange _ xs

example : shuffled ['A', 'B', 'C', 'D'] 1234 = ['A', 'B', 'D', 'C'] := by decide

end ExamVariants.Shuffle
