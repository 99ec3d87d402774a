import Mathlib.Logic.Function.Basic

namespace ExamVariants.Decimal

variable {n : Nat} {c : Char}

theorem isDigit_of_mem_toDigits (h : c ∈ Nat.toDigits 10 n) : c.isDigit = true :=
  Nat.isDigit_of_mem_toDigits (by decide) (by decide) h

theorem notMem_toDigits (hc : c.isDigit = false) (n : Nat) : c ∉ Nat.toDigits 10 n := by
  intro hmem
  rw [isDigit_of_mem_toDigits hmem] at hc
  cases hc

theorem toDigits_injective : Function.Injective (Nat.toDigits 10) := by
  intro j k h
  rw [← Nat.ofDigitChars_ten_toDigits (n := j), h, Nat.ofDigitChars_ten_toDigits]

theorem toList_toString (n : Nat) : (toString n).toList = Nat.toDigits 10 n := by
  rw [Nat.toString_eq_repr, Nat.toList_repr]

theorem isDigit_of_mem_toString (h : c ∈ (toString n).toList) : c.isDigit = true :=
  isDigit_of_mem_toDigits (toList_toString n ▸ h)

theorem notMem_toString (hc : c.isDigit = false) (n : Nat) : c ∉ (toString n).toList :=
  toList_toString n ▸ notMem_toDigits hc n

theorem exists_mem_toString (n : Nat) : ∃ c, c ∈ (toString n).toList := by
  rw [toList_toString]
  exact List.exists_mem_of_ne_nil _ Nat.toDigits_ne_nil

theorem toString_injective : Function.Injective (toString : Nat → String) := by
  intro j k h
  apply toDigits_injective
  rw [← toList_toString, ← toList_toString, h]

end ExamVariants.Decimal
