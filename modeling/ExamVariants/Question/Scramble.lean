import ExamVariants.Question.Basic
import ExamVariants.Shuffle

namespace ExamVariants.Question

open Shuffle

mutual

def scrambled (seed : Int64) : Question → Question
  | openEnded statement modelAnswer points answerLength =>
    openEnded statement modelAnswer points answerLength
  | trueFalse statement answer points => trueFalse statement answer points
  | closedEnded statement points choices => closedEnded statement points (shuffled choices seed)
  | compound statement points children =>
    compound statement points (shuffled (scrambledEach seed children) seed)

def scrambledEach (seed : Int64) : List Question → List Question
  | [] => []
  | q :: qs => q.scrambled seed :: scrambledEach seed qs

end

theorem scrambledEach_eq_map (seed : Int64) (qs : List Question) :
    scrambledEach seed qs = qs.map (scrambled seed) := by
  induction qs with
  | nil => rfl
  | cons q qs ih => simp [scrambledEach, ih]

@[simp] theorem kind_scrambled (seed : Int64) (q : Question) :
    (q.scrambled seed).kind = q.kind := by
  cases q <;> simp [scrambled, kind]

@[simp] theorem header_scrambled (seed : Int64) (q : Question) :
    (q.scrambled seed).header = q.header := by
  cases q <;> simp [scrambled, header]

@[simp] theorem points_scrambled (seed : Int64) (q : Question) :
    (q.scrambled seed).points = q.points := by
  cases q <;> simp [scrambled, points]

end ExamVariants.Question
