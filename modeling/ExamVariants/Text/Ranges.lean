namespace ExamVariants.Text

/-- Halves the part of the table from `lo` up to, and without, `hi`. -/
def searchRanges (table : Array (Nat × Nat)) (n : Nat) : Nat → Nat → Nat → Bool
  | 0, _, _ => false
  | fuel + 1, lo, hi =>
    if lo < hi then
      let mid := (lo + hi) / 2
      let (first, last) := table.getD mid (0, 0)
      if n < first then searchRanges table n fuel lo mid
      else if last < n then searchRanges table n fuel (mid + 1) hi
      else true
    else false

/-- Whether a code point lies in a range of a sorted table. -/
def inRanges (table : Array (Nat × Nat)) (n : Nat) : Bool :=
  searchRanges table n 32 0 table.size

end ExamVariants.Text
