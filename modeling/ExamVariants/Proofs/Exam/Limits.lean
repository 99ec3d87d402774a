import ExamVariants.Proofs.Exam.Draw
import ExamVariants.Proofs.Question.Points

namespace ExamVariants

namespace Exam

open Shuffle

variable {e v v' : Exam} {seed : Int64} {n limit limit' i : Nat}

theorem perm_drawn (n limit : Nat) (seed : Int64) :
    (drawn n limit seed).Perm ((order (Generator.ofSeed seed) n).take limit) :=
  perm_shuffled _ seed

/-- The index that a limit leaves out and the next one draws. -/
def added (h : limit < n) (seed : Int64) : Fin n :=
  have hlength : limit < (order (Generator.ofSeed seed) n).length := by rwa [length_order]
  ⟨(order (Generator.ofSeed seed) n)[limit], mem_order_iff.mp (List.getElem_mem hlength)⟩

theorem perm_drawn_succ (h : limit < n) (seed : Int64) :
    (drawn n (limit + 1) seed).Perm ((added h seed).val :: drawn n limit seed) := by
  have hlength : limit < (order (Generator.ofSeed seed) n).length := by rwa [length_order]
  refine (perm_drawn n (limit + 1) seed).trans ?_
  rw [List.take_succ_eq_append_getElem hlength]
  exact (List.perm_append_singleton _ _).trans ((perm_drawn n limit seed).symm.cons _)

theorem added_notMem_drawn (h : limit < n) (seed : Int64) :
    (added h seed).val ∉ drawn n limit seed :=
  (List.nodup_cons.mp ((perm_drawn_succ h seed).nodup_iff.mp (nodup_drawn n (limit + 1) seed))).1

theorem mem_drawn_succ_iff (h : limit < n) (seed : Int64) (j : Nat) :
    j ∈ drawn n (limit + 1) seed ↔ j = added h seed ∨ j ∈ drawn n limit seed := by
  rw [(perm_drawn_succ h seed).mem_iff, List.mem_cons]

theorem perm_drawn_all (n : Nat) (seed : Int64) : (drawn n n seed).Perm (List.range n) := by
  refine (perm_drawn n n seed).trans ?_
  rw [List.take_of_length_le (Nat.le_of_eq (length_order _ n))]
  exact perm_order _ n

/-- The questions are those of the master at these indices, scrambled. -/
def Holds (e : Exam) (seed : Int64) (v : Exam) (indices : List Nat) : Prop :=
  v.questions.map some = indices.map fun i => e.questions[i]?.map (Question.scrambled seed)

def pointsAt (e : Exam) (i : Nat) : Nat := (e.questions[i]?.map Question.points).getD 0

theorem pointsAt_fin (k : Fin e.questions.length) : e.pointsAt k = e.questions[k].points := by
  rw [pointsAt, List.getElem?_eq_getElem k.isLt]
  rfl

theorem Holds.sum_points_eq {indices : List Nat} (h : Holds e seed v indices) :
    (v.questions.map Question.points).sum = (indices.map e.pointsAt).sum := by
  have hpoints := congrArg (List.map fun q => (q.map Question.points).getD 0) h
  simp only [List.map_map, Function.comp_def, Option.map_map, Option.map_some, Option.getD_some,
    Question.points_scrambled] at hpoints
  exact congrArg List.sum hpoints

def drawnPoints (e : Exam) (seed : Int64) (limit : Nat) : Nat :=
  ((drawn e.questions.length limit seed).map e.pointsAt).sum

theorem drawnPoints_succ (h : limit < e.questions.length) (seed : Int64) :
    e.drawnPoints seed (limit + 1) =
      e.drawnPoints seed limit + e.questions[added h seed].points := by
  rw [drawnPoints, ((perm_drawn_succ h seed).map e.pointsAt).sum_eq, List.map_cons, List.sum_cons,
    pointsAt_fin, Nat.add_comm, drawnPoints]

theorem drawnPoints_le (seed : Int64) (hle : limit ≤ limit') (h : limit' ≤ e.questions.length) :
    e.drawnPoints seed limit ≤ e.drawnPoints seed limit' := by
  induction hle with
  | refl => exact Nat.le_refl _
  | step _ ih =>
    rw [drawnPoints_succ h]
    exact Nat.le_trans (ih (Nat.le_of_succ_le h)) (Nat.le_add_right _ _)

/-- The section at an index gets this variant. -/
def GetsVariant (e : Exam) (seed : Int64) (limit i : Nat) (v : Exam) : Prop :=
  ∃ vs, e.variants seed limit = .ok vs ∧ vs[i]? = some v

theorem GetsVariant.le (h : GetsVariant e seed limit i v) : limit ≤ e.questions.length := by
  obtain ⟨vs, hvs, -⟩ := h
  exact (variants_eq_ok_iff.mp hvs).1

theorem GetsVariant.exists_eq (h : GetsVariant e seed limit i v) :
    ∃ s, v = e.variant (sectionSeed seed i) limit s := by
  obtain ⟨vs, hvs, hv⟩ := h
  obtain ⟨-, ss, -, rfl⟩ := variants_eq_ok_iff.mp hvs
  rw [List.getElem?_mapIdx, Option.map_eq_some_iff] at hv
  obtain ⟨s, -, rfl⟩ := hv
  exact ⟨s, rfl⟩

theorem exists_getsVariant {ss : List Section} (hss : e.sections = .ok ss) (hi : i < ss.length)
    (h : limit ≤ e.questions.length) (seed : Int64) : ∃ v, GetsVariant e seed limit i v := by
  have hi' : i < (ss.mapIdx fun i s => e.variant (sectionSeed seed i) limit s).length := by
    rwa [List.length_mapIdx]
  exact ⟨_, _, variants_eq_ok_iff.mpr ⟨h, ss, hss, rfl⟩, List.getElem?_eq_getElem hi'⟩

theorem GetsVariant.holds (h : GetsVariant e seed limit i v) :
    Holds e (sectionSeed seed i) v (drawn e.questions.length limit (sectionSeed seed i)) := by
  obtain ⟨s, rfl⟩ := h.exists_eq
  exact map_some_questions_variant e _ limit s

theorem GetsVariant.sum_points_eq (h : GetsVariant e seed limit i v) :
    (v.questions.map Question.points).sum = e.drawnPoints (sectionSeed seed i) limit :=
  h.holds.sum_points_eq

theorem GetsVariant.perm_questions (h : GetsVariant e seed e.questions.length i v) :
    v.questions.Perm (e.questions.map (Question.scrambled (sectionSeed seed i))) := by
  obtain ⟨s, rfl⟩ := h.exists_eq
  rw [questions_variant, List.take_of_length_le (Nat.le_of_eq (length_shuffled _ _))]
  exact ((perm_shuffled _ _).trans (perm_shuffled _ _)).map _

def weightedSheet : Exam where
  parameters := Parameters.empty.bind .sections
    (.sections [⟨"A", none, none⟩, ⟨"B", none, none⟩])
  questions := [.trueFalse (.plain "first") true 1, .trueFalse (.plain "second") false 2,
    .openEnded (.plain "third") (.plain "answer") 4 "1in"]

/-- The points of both questions do not fit 32 bits together. -/
def overflowingSheet : Exam where
  parameters := Parameters.empty.bind .sections (.sections [⟨"A", none, none⟩])
  questions := [.trueFalse (.plain "first") true 4294967295, .trueFalse (.plain "second") false 1]

end Exam

end ExamVariants
