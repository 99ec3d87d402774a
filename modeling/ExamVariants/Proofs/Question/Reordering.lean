import ExamVariants.Exam.Basic
import ExamVariants.Proofs.Question.Tree
import ExamVariants.Proofs.Shuffle.Order
import Mathlib.Data.List.Perm.Basic
import Mathlib.Data.List.Sort

namespace ExamVariants

open Shuffle

namespace Question

/-- The first question is the second one with lists reordered at any depth: nodes keep what they
hold, and nothing enters or leaves a list. -/
inductive Reordering : Question → Question → Prop
  | openEnded (statement modelAnswer : Segment) (points : Nat) (answerLength : String) :
    Reordering (.openEnded statement modelAnswer points answerLength)
      (.openEnded statement modelAnswer points answerLength)
  | closedEnded (statement : Segment) (points : Nat) {choices choices' : List Choice} :
    choices.Perm choices' →
      Reordering (.closedEnded statement points choices) (.closedEnded statement points choices')
  | trueFalse (statement : Segment) (answer : Bool) (points : Nat) :
    Reordering (.trueFalse statement answer points) (.trueFalse statement answer points)
  | compound (statement : Segment) (points : Nat) {children middle children' : List Question} :
    children.Perm middle → List.Forall₂ Reordering middle children' →
      Reordering (.compound statement points children) (.compound statement points children')

def ReorderedList (qs qs' : List Question) : Prop :=
  ∃ middle, qs.Perm middle ∧ List.Forall₂ Reordering middle qs'

theorem reorderedList_of_perm_map {f : Question → Question} {qs qs' : List Question}
    (hperm : qs'.Perm (qs.map f)) (h : ∀ q ∈ qs, Reordering (f q) q) : ReorderedList qs' qs := by
  refine ⟨qs.map f, hperm, ?_⟩
  rw [List.forall₂_map_left_iff, List.forall₂_same]
  exact h

theorem Reordering.symm {q q' : Question} (h : Reordering q q') : Reordering q' q := by
  induction q' generalizing q with
  | openEnded statement modelAnswer points answerLength =>
    cases h
    exact .openEnded statement modelAnswer points answerLength
  | closedEnded statement points choices =>
    cases h with
    | closedEnded _ _ hperm => exact .closedEnded statement points hperm.symm
  | trueFalse statement answer points =>
    cases h
    exact .trueFalse statement answer points
  | compound statement points children' ih =>
    cases h with
    | compound _ _ hperm hmiddle =>
      -- The order is changed after the children instead of before them.
      obtain ⟨middle', hmiddle', hperm'⟩ := List.perm_comp_forall₂ hperm hmiddle
      have hback := (List.forall₂_and_left _ _).mpr
        ⟨fun q' hq' => @ih q' (hperm'.mem_iff.mp hq'), hmiddle'.flip⟩
      exact .compound statement points hperm'.symm (hback.imp fun q' q hq => hq.1 hq.2)

theorem forall₂_trans_of_mem {α : Type} {R : α → α → Prop} {xs ys zs : List α}
    (h : ∀ z ∈ zs, ∀ x y, R x y → R y z → R x z) (hxy : List.Forall₂ R xs ys)
    (hyz : List.Forall₂ R ys zs) : List.Forall₂ R xs zs := by
  induction hyz generalizing xs with
  | nil => exact hxy
  | cons hy _ ih =>
    cases hxy with
    | cons hx hxy =>
      have hhead := h _ List.mem_cons_self _ _ hx hy
      have htail := ih (fun z hz => h z (List.mem_cons_of_mem _ hz)) hxy
      exact .cons hhead htail

theorem Reordering.trans {q q' q'' : Question} (h : Reordering q q') (h' : Reordering q' q'') :
    Reordering q q'' := by
  induction q'' generalizing q q' with
  | openEnded statement modelAnswer points answerLength =>
    cases h'
    exact h
  | closedEnded statement points choices =>
    cases h' with
    | closedEnded _ _ hperm' =>
      cases h with
      | closedEnded _ _ hperm => exact .closedEnded statement points (hperm.trans hperm')
  | trueFalse statement answer points =>
    cases h'
    exact h
  | compound statement points children'' ih =>
    cases h' with
    | @compound _ _ children' middle' _ hperm' hmiddle' =>
      cases h with
      | @compound _ _ children middle _ hperm hmiddle =>
        -- Both changes of order come first, then both changes within the children.
        have hcomp : Relation.Comp List.Perm (List.Forall₂ Reordering) middle middle' := by
          rw [← List.forall₂_comp_perm_eq_perm_comp_forall₂]
          exact ⟨children', hmiddle, hperm'⟩
        obtain ⟨start, hstart, hsame⟩ := hcomp
        have heach : List.Forall₂ Reordering start children'' :=
          forall₂_trans_of_mem (fun q hq _ _ hxy hyz => ih q hq hxy hyz) hsame hmiddle'
        exact .compound statement points (hperm.trans hstart) heach

theorem reorderedList_shuffled {seed : Int64} {qs : List Question}
    (h : ∀ q ∈ qs, Reordering (q.scrambled seed) q) :
    ReorderedList (shuffled (qs.map (scrambled seed)) seed) qs :=
  reorderedList_of_perm_map (perm_shuffled _ seed) h

theorem reordering_scrambled (seed : Int64) (q : Question) : Reordering (q.scrambled seed) q := by
  induction q with
  | openEnded statement modelAnswer points answerLength =>
    exact .openEnded statement modelAnswer points answerLength
  | closedEnded statement points choices =>
    exact .closedEnded statement points (perm_shuffled choices seed)
  | trueFalse statement answer points => exact .trueFalse statement answer points
  | compound statement points children ih =>
    obtain ⟨middle, hperm, hmiddle⟩ := reorderedList_shuffled ih
    rw [scrambled, scrambledEach_eq_map]
    exact .compound statement points hperm hmiddle

theorem mergeSort_eq_of_perm {α : Type} [LinearOrder α] {xs ys : List α} (h : xs.Perm ys) :
    xs.mergeSort (· ≤ ·) = ys.mergeSort (· ≤ ·) := by
  have hperm := ((List.mergeSort_perm xs (· ≤ ·)).trans h).trans
    (List.mergeSort_perm ys (· ≤ ·)).symm
  apply hperm.eq_of_sortedLE
  · exact List.sortedLE_mergeSort
  · exact List.sortedLE_mergeSort

section Sorted

variable [LinearOrder Choice] [LinearOrder Question]

mutual

/-- The question with its choices and children sorted, the lists within a child before the list that
holds it. -/
def sorted : Question → Question
  | openEnded statement modelAnswer points answerLength =>
    openEnded statement modelAnswer points answerLength
  | closedEnded statement points choices =>
    closedEnded statement points (choices.mergeSort (· ≤ ·))
  | trueFalse statement answer points => trueFalse statement answer points
  | compound statement points children =>
    compound statement points ((sortedEach children).mergeSort (· ≤ ·))

def sortedEach : List Question → List Question
  | [] => []
  | q :: qs => q.sorted :: sortedEach qs

end

def sortedList (qs : List Question) : List Question := (qs.map sorted).mergeSort (· ≤ ·)

theorem sortedList_perm (qs : List Question) : (sortedList qs).Perm (qs.map sorted) :=
  List.mergeSort_perm _ _

theorem sortedEach_eq_map (qs : List Question) : sortedEach qs = qs.map sorted := by
  induction qs with
  | nil => rfl
  | cons q qs ih => rw [sortedEach, ih, List.map_cons]

theorem sorted_compound (statement : Segment) (points : Nat) (children : List Question) :
    (compound statement points children).sorted =
      compound statement points (sortedList children) := by
  rw [sorted, sortedEach_eq_map, sortedList]

theorem sortedList_eq_of_reorderedList {qs qs' : List Question} (h : ReorderedList qs qs')
    (heach : ∀ q' ∈ qs', ∀ q, Reordering q q' → q.sorted = q'.sorted) :
    sortedList qs = sortedList qs' := by
  obtain ⟨middle, hperm, hmiddle⟩ := h
  -- Each question of the middle list sorts to its partner; the order of the list no longer counts.
  have hmap : middle.map sorted = qs'.map sorted := by
    clear hperm
    induction hmiddle with
    | nil => rfl
    | cons hq _ ih =>
      have hhead := heach _ List.mem_cons_self _ hq
      have htail := ih fun q' hq' => heach q' (List.mem_cons_of_mem _ hq')
      rw [List.map_cons, List.map_cons, hhead, htail]
  unfold sortedList
  rw [← hmap]
  exact mergeSort_eq_of_perm (hperm.map sorted)

theorem sorted_eq_of_reordering {q q' : Question} (h : Reordering q q') : q.sorted = q'.sorted := by
  induction q' generalizing q with
  | openEnded statement modelAnswer points answerLength =>
    cases h
    rfl
  | closedEnded statement points choices =>
    cases h with
    | closedEnded _ _ hperm => rw [sorted, sorted, mergeSort_eq_of_perm hperm]
  | trueFalse statement answer points =>
    cases h
    rfl
  | compound statement points children' ih =>
    cases h with
    | compound _ _ hperm hmiddle =>
      have hlist := sortedList_eq_of_reorderedList ⟨_, hperm, hmiddle⟩ fun q' hq' q => ih q' hq'
      rw [sorted_compound, sorted_compound, hlist]

theorem reordering_sorted (q : Question) : Reordering q.sorted q := by
  induction q with
  | openEnded statement modelAnswer points answerLength =>
    exact .openEnded statement modelAnswer points answerLength
  | closedEnded statement points choices =>
    exact .closedEnded statement points (List.mergeSort_perm choices (· ≤ ·))
  | trueFalse statement answer points => exact .trueFalse statement answer points
  | compound statement points children ih =>
    obtain ⟨middle, hperm, hmiddle⟩ : ReorderedList (sortedList children) children :=
      reorderedList_of_perm_map (sortedList_perm children) ih
    rw [sorted_compound]
    exact .compound statement points hperm hmiddle

/-- Sorted questions stand for all their reorderings, whatever the orders to sort by. -/
theorem reordering_iff_sorted_eq {q q' : Question} : Reordering q q' ↔ q.sorted = q'.sorted := by
  refine ⟨sorted_eq_of_reordering, fun h => ?_⟩
  have hsorted : Reordering q q'.sorted := h ▸ (reordering_sorted q).symm
  exact hsorted.trans (reordering_sorted q')

end Sorted

end Question

open Question

/-- Scrambling reorders lists and does nothing else: the lists of a scrambled question, and of a
scrambled examination, are those of the original in another order at every depth, so sorting all of
them by any order gives the same question from both. -/
theorem scrambled_only_reorders (seed : Int64) :
    (∀ q : Question, Reordering (q.scrambled seed) q ∧
      ∀ [LinearOrder Choice] [LinearOrder Question], (q.scrambled seed).sorted = q.sorted) ∧
    ∀ e : Exam, (e.scrambled seed).parameters = e.parameters ∧
      ReorderedList (e.scrambled seed).questions e.questions ∧
      ∀ [LinearOrder Choice] [LinearOrder Question],
        sortedList (e.scrambled seed).questions = sortedList e.questions := by
  constructor
  · intro q
    have hq := reordering_scrambled seed q
    exact ⟨hq, reordering_iff_sorted_eq.mp hq⟩
  · intro e
    have hlist : ReorderedList (e.scrambled seed).questions e.questions :=
      reorderedList_shuffled fun q _ => reordering_scrambled seed q
    exact ⟨rfl, hlist, sortedList_eq_of_reorderedList hlist fun _ _ _ => sorted_eq_of_reordering⟩

end ExamVariants
