import ExamVariants.Text.Alphanumeric
import ExamVariants.Text.Blank
import Mathlib.Data.List.TakeWhile

namespace ExamVariants.Text

def blankCodes : List Nat :=
  List.range' 0x9 5 ++ [0x20, 0x85, 0xa0, 0x1680] ++ List.range' 0x2000 11 ++
    [0x2028, 0x2029, 0x202f, 0x205f, 0x3000]

theorem toNat_mem_blankCodes {c : Char} (h : isBlank c = true) : c.toNat ∈ blankCodes := by
  have hspan {first last : Char} (hc : first ≤ c ∧ c ≤ last) :
      c.toNat ∈ List.range' first.toNat (last.toNat + 1 - first.toNat) := by
    have hfirst : first.toNat ≤ c.toNat := hc.1
    have hlast : c.toNat ≤ last.toNat := hc.2
    rw [List.mem_range'_1]
    omega
  simp only [isBlank, Bool.or_eq_true, Bool.and_eq_true, decide_eq_true_eq, beq_iff_eq] at h
  rcases h with (((((((((rfl | h) | rfl) | rfl) | rfl) | h) | rfl) | rfl) | rfl) | rfl) | rfl
  · decide
  · exact List.mem_append_left _ (List.mem_append_left _ (List.mem_append_left _ (hspan h)))
  · decide
  · decide
  · decide
  · exact List.mem_append_left _ (List.mem_append_right _ (hspan h))
  all_goals decide

theorem toNat_of_isBlank {c : Char} (h : isBlank c = true) : c.toNat < 45 ∨ 122 < c.toNat := by
  have hcodes : ∀ n ∈ blankCodes, n < 45 ∨ 122 < n := by decide
  exact hcodes c.toNat (toNat_mem_blankCodes h)

theorem isAlphanumeric_of_isBlank {c : Char} (h : isBlank c = true) : isAlphanumeric c = false := by
  have hcodes : ∀ n ∈ blankCodes, isAlphanumeric (Char.ofNat n) = false := by decide +kernel
  rw [← Char.ofNat_toNat c]
  exact hcodes c.toNat (toNat_mem_blankCodes h)

/-- Neither end of the text is blank. -/
structure Trimmed (cs : List Char) : Prop where
  head : ∀ c, cs.head? = some c → isBlank c = false
  last : ∀ c, cs.getLast? = some c → isBlank c = false

variable {cs cs' : List Char}

theorem trimmed_nil : Trimmed [] := ⟨nofun, nofun⟩

theorem trimmed_of_forall (h : ∀ c ∈ cs, isBlank c = false) : Trimmed cs :=
  ⟨fun c hc => h c (List.mem_of_head? hc), fun c hc => h c (List.mem_of_getLast? hc)⟩

theorem Trimmed.append (h : Trimmed cs) (h' : Trimmed cs') : Trimmed (cs ++ cs') := by
  constructor
  · intro c hc
    cases cs with
    | nil => exact h'.head c hc
    | cons d cs => exact h.head c hc
  · intro c hc
    rw [List.getLast?_append, Option.or_eq_some_iff] at hc
    rcases hc with hc | ⟨-, hc⟩
    · exact h'.last c hc
    · exact h.last c hc

theorem isBlank_of_head?_dropWhile {c : Char} (h : (cs.dropWhile isBlank).head? = some c) :
    isBlank c = false := by
  have hhead := List.head?_dropWhile_not isBlank cs
  rw [h] at hhead
  exact hhead

theorem trimmed_stripChars (cs : List Char) : Trimmed (stripChars cs) := by
  constructor
  · -- What is dropped at the end leaves the first character where it is.
    intro c hc
    obtain ⟨dropped, hdropped⟩ :=
      List.dropWhile_suffix (p := isBlank) (l := (cs.dropWhile isBlank).reverse)
    have hhead : (cs.dropWhile isBlank).head? = some c := by
      rw [stripChars, dropBlankEnd] at hc
      rw [← List.reverse_reverse (cs.dropWhile isBlank), ← hdropped, List.reverse_append,
        List.head?_append, hc, Option.some_or]
    exact isBlank_of_head?_dropWhile hhead
  · intro c hc
    rw [stripChars, dropBlankEnd, List.getLast?_reverse] at hc
    exact isBlank_of_head?_dropWhile hc

variable {before after : List Char}

theorem dropWhile_isBlank_append (hbefore : ∀ c ∈ before, isBlank c = true)
    (h : ∀ c, cs.head? = some c → isBlank c = false) :
    (before ++ cs).dropWhile isBlank = cs := by
  rw [List.dropWhile_append_of_pos hbefore]
  cases cs with
  | nil => rfl
  | cons c cs => exact List.dropWhile_cons_of_neg (by simp [h c rfl])

theorem stripChars_append (hblank : ∀ c ∈ before ++ after, isBlank c = true) (h : Trimmed cs) :
    stripChars (before ++ cs ++ after) = cs := by
  have hbefore : ∀ c ∈ before, isBlank c = true := fun c hc =>
    hblank c (List.mem_append_left _ hc)
  have hafter : ∀ c ∈ after.reverse, isBlank c = true := fun c hc =>
    hblank c (List.mem_append_right _ (List.mem_reverse.mp hc))
  cases cs with
  | nil =>
    rw [List.append_nil, stripChars, List.dropWhile_eq_nil_iff.mpr hblank]
    rfl
  | cons c cs =>
    have hhead : ∀ d, (c :: cs ++ after).head? = some d → isBlank d = false := h.head
    have hlast : ∀ d, (c :: cs).reverse.head? = some d → isBlank d = false := by
      intro d hd
      rw [List.head?_reverse] at hd
      exact h.last d hd
    rw [stripChars, List.append_assoc, dropWhile_isBlank_append hbefore hhead, dropBlankEnd,
      List.reverse_append, dropWhile_isBlank_append hafter hlast, List.reverse_reverse]

theorem Trimmed.stripChars_eq (h : Trimmed cs) : stripChars cs = cs := by
  have hstrip : stripChars ([] ++ cs ++ []) = cs := stripChars_append (by simp) h
  rwa [List.nil_append, List.append_nil] at hstrip

theorem exists_stripChars (cs : List Char) :
    ∃ before after, cs = before ++ stripChars cs ++ after ∧
      ∀ c ∈ before ++ after, isBlank c = true := by
  refine ⟨cs.takeWhile isBlank,
    ((cs.dropWhile isBlank).reverse.takeWhile isBlank).reverse, ?_, ?_⟩
  · rw [stripChars, dropBlankEnd, List.append_assoc, ← List.reverse_append,
      List.takeWhile_append_dropWhile, List.reverse_reverse, List.takeWhile_append_dropWhile]
  · intro c hc
    rcases List.mem_append.mp hc with hc | hc
    · exact List.mem_takeWhile_imp hc
    · exact List.mem_takeWhile_imp (List.mem_reverse.mp hc)

end ExamVariants.Text
