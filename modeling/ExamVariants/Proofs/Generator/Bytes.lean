import ExamVariants.Generator
import Mathlib.Data.Nat.Digits.Defs
import Mathlib.Logic.Function.Iterate

namespace ExamVariants.Generator

open Function

def words (g : Generator) : Nat → List UInt32
  | 0 => []
  | n + 1 => g.nextWord32.1 :: words g.nextWord32.2 n

theorem snd_nextWord32 (g : Generator) : g.nextWord32.2 = g.step := rfl

@[simp] theorem length_words (g : Generator) (n : Nat) : (g.words n).length = n := by
  induction n generalizing g with
  | zero => rfl
  | succ n ih => rw [words, List.length_cons, ih]

@[simp] theorem length_littleEndian (w : UInt32) : (littleEndian w).length = 4 := rfl

theorem take_littleEndian_append (w : UInt32) (bs : List UInt8) (n : Nat) :
    (littleEndian w ++ bs).take (n + 4) = littleEndian w ++ bs.take n := rfl

theorem ofDigits_littleEndian (w : UInt32) :
    Nat.ofDigits 256 ((littleEndian w).map UInt8.toNat) = w.toNat := by
  have hlt := w.toNat_lt
  simp only [littleEndian, List.map_cons, List.map_nil, Nat.ofDigits_cons, Nat.ofDigits_nil,
    UInt32.toNat_toUInt8, UInt32.toNat_shiftRight]
  simp only [UInt32.reduceToNat, Nat.reduceMod, Nat.shiftRight_eq_div_pow]
  omega

theorem nextBytes_zero (g : Generator) : g.nextBytes 0 = ([], g) := by rw [nextBytes]

theorem nextBytes_add_four (g : Generator) (n : Nat) :
    g.nextBytes (n + 4) =
      (littleEndian g.nextWord32.1 ++ (g.step.nextBytes n).1, (g.step.nextBytes n).2) := by
  rw [nextBytes]
  rfl

theorem nextBytes_of_lt_four (g : Generator) {n : Nat} (hpos : 0 < n) (hlt : n < 4) :
    g.nextBytes n = ((littleEndian g.nextWord32.1).take n, g.step) := by
  rw [nextBytes]
  · rfl
  · omega
  · omega

theorem nextBytes_eq (g : Generator) (n : Nat) :
    g.nextBytes n =
      (((g.words ((n + 3) / 4)).flatMap littleEndian).take n, step^[(n + 3) / 4] g) := by
  induction g, n using nextBytes.induct with
  | case1 g => rw [nextBytes_zero, List.take_zero]; rfl
  | case2 g n w h hdraw rest k hrest ih =>
    obtain rfl : g.step = h := congrArg Prod.snd hdraw
    have hsucc : (n + 4 + 3) / 4 = (n + 3) / 4 + 1 := by omega
    rw [Nat.succ_eq_add_one, nextBytes_add_four, ih, hsucc, words, snd_nextWord32,
      List.flatMap_cons, take_littleEndian_append, iterate_succ_apply]
  | case3 g n hzero hfour =>
    have hpos : 0 < n := Nat.pos_of_ne_zero hzero
    have hlt : n < 4 := Nat.lt_of_not_le fun hle => hfour (n - 4) (by omega)
    have hone : (n + 3) / 4 = 1 := by omega
    rw [nextBytes_of_lt_four g hpos hlt, hone, iterate_one, words, words, List.flatMap_cons,
      List.flatMap_nil, List.append_nil]

theorem length_nextBytes (g : Generator) (n : Nat) : (g.nextBytes n).1.length = n := by
  have hlength : ((g.words ((n + 3) / 4)).flatMap littleEndian).length = 4 * ((n + 3) / 4) := by
    simp [List.length_flatMap, List.map_const', Nat.mul_comm]
  rw [nextBytes_eq, List.length_take, hlength]
  omega

theorem nextBytes_mul_four_add (g : Generator) (m b : Nat) :
    g.nextBytes (4 * m + b) =
      ((g.nextBytes (4 * m)).1 ++ ((g.nextBytes (4 * m)).2.nextBytes b).1,
        ((g.nextBytes (4 * m)).2.nextBytes b).2) := by
  induction m generalizing g with
  | zero => rw [Nat.mul_zero, Nat.zero_add, nextBytes_zero, List.nil_append]
  | succ m ih =>
    rw [Nat.mul_succ, Nat.add_right_comm, nextBytes_add_four, nextBytes_add_four, ih,
      List.append_assoc]

/-- Two words as one: the low one is added with its sign. -/
def joined (high low : UInt32) : UInt64 :=
  (high.toInt32.toInt64 <<< 32 + low.toInt32.toInt64).toUInt64

/-- What a negative low word takes from the high one, as a number to add modulo `2 ^ 32`. -/
def borrow (low : UInt32) : Nat := if low.toNat < 2 ^ 31 then 0 else 2 ^ 32 - 1

theorem toNat_toInt64 (w : UInt32) :
    w.toInt32.toInt64.toBitVec.toNat =
      w.toNat + if w.toNat < 2 ^ 31 then 0 else 2 ^ 64 - 2 ^ 32 := by
  have hlt := w.toNat_lt
  rw [Int32.toBitVec_toInt64, BitVec.toNat_signExtend, BitVec.toNat_setWidth,
    UInt32.toBitVec_toInt32, BitVec.msb_eq_decide, UInt32.toNat_toBitVec]
  simp only [decide_eq_true_eq]
  split <;> split <;> omega

theorem toNat_joined (high low : UInt32) :
    (joined high low).toNat = (high.toNat + borrow low) % 2 ^ 32 * 2 ^ 32 + low.toNat := by
  have hhigh := high.toNat_lt
  have hlow := low.toNat_lt
  have hcount : ((32 : Int64).toBitVec.smod 64).toNat = 32 := by decide
  rw [joined, ← UInt64.toNat_toBitVec, Int64.toBitVec_toUInt64, Int64.toBitVec_add,
    Int64.toBitVec_shiftLeft, BitVec.toNat_add, BitVec.shiftLeft_eq', hcount,
    BitVec.toNat_shiftLeft, Nat.shiftLeft_eq, toNat_toInt64, toNat_toInt64, borrow]
  split <;> split <;> omega

/-- The lower half is the low word; with its borrow known, the upper half gives the high one. -/
theorem joined_inj {high low high' low' : UInt32} :
    joined high low = joined high' low' ↔ high = high' ∧ low = low' := by
  refine ⟨fun h => ?_, fun ⟨hhigh, hlow⟩ => by rw [hhigh, hlow]⟩
  have hsame := congrArg UInt64.toNat h
  have hlt := high.toNat_lt
  have hlt' := high'.toNat_lt
  have hlowLt := low.toNat_lt
  have hlowLt' := low'.toNat_lt
  rw [toNat_joined, toNat_joined] at hsame
  obtain rfl : low = low' := UInt32.toNat_inj.mp (by omega)
  refine ⟨UInt32.toNat_inj.mp ?_, rfl⟩
  generalize borrow low = b at hsame
  omega

theorem nextWord64_eq (g : Generator) :
    g.nextWord64 = (joined g.nextWord32.1 g.nextWord32.2.nextWord32.1, step^[2] g) := rfl

theorem fst_nextWord64_inj {g h : Generator} :
    g.nextWord64.1 = h.nextWord64.1 ↔ g.words 2 = h.words 2 := by
  rw [nextWord64_eq, nextWord64_eq, joined_inj]
  simp only [words, List.cons.injEq, and_true]

/-- Filling with bytes reads the stream of words. It takes the bytes of the next words, low bytes
first, one word for every four bytes or less, and the state moves on by a step a word; so whole words
may be asked for apart from what follows them. A word of 64 bits is made of two words of the stream,
and two such words are equal only if both their parts are. -/
theorem bytes_are_words_drawn :
    (∀ w, (littleEndian w).length = 4 ∧
      Nat.ofDigits 256 ((littleEndian w).map UInt8.toNat) = w.toNat) ∧
    (∀ (g : Generator) (n : Nat), (g.nextBytes n).1.length = n ∧ g.nextBytes n =
      (((g.words ((n + 3) / 4)).flatMap littleEndian).take n, step^[(n + 3) / 4] g)) ∧
    (∀ (g : Generator) (a b : Nat), 4 ∣ a → g.nextBytes (a + b) =
      ((g.nextBytes a).1 ++ ((g.nextBytes a).2.nextBytes b).1,
        ((g.nextBytes a).2.nextBytes b).2)) ∧
    (∀ g : Generator, g.nextWord64.2 = step^[2] g ∧ g.nextWord64.1.toNat =
      (g.nextWord32.1.toNat + borrow g.nextWord32.2.nextWord32.1) % 2 ^ 32 * 2 ^ 32 +
        g.nextWord32.2.nextWord32.1.toNat) ∧
    ∀ g h : Generator, g.nextWord64.1 = h.nextWord64.1 ↔ g.words 2 = h.words 2 := by
  refine ⟨fun w => ⟨length_littleEndian w, ofDigits_littleEndian w⟩, ?_, ?_, ?_,
    fun g h => fst_nextWord64_inj⟩
  · intro g n
    exact ⟨length_nextBytes g n, nextBytes_eq g n⟩
  · rintro g _ b ⟨m, rfl⟩
    exact nextBytes_mul_four_add g m b
  · intro g
    rw [nextWord64_eq]
    exact ⟨rfl, toNat_joined _ _⟩

/-- Seven bytes as four and three, of two words that are both negative. -/
theorem bytes_are_words_drawn_zeroSeed :
    4 ∣ 4 ∧ (ofSeed 0).nextBytes (4 + 3) =
        ([0x60, 0xB4, 0x20, 0xBB] ++ [0x38, 0x51, 0xD9], step^[2] (ofSeed 0)) ∧
      ((ofSeed 0).nextBytes 4).1 = [0x60, 0xB4, 0x20, 0xBB] ∧
      (((ofSeed 0).nextBytes 4).2.nextBytes 3).1 = [0x38, 0x51, 0xD9] := by
  have hfour : ((ofSeed 0).nextBytes 4).1 = [0x60, 0xB4, 0x20, 0xBB] := by decide
  have hthree : (((ofSeed 0).nextBytes 4).2.nextBytes 3).1 = [0x38, 0x51, 0xD9] := by decide
  obtain ⟨-, -, hapart, -⟩ := bytes_are_words_drawn
  have hseven := hapart (ofSeed 0) 4 3 dvd_rfl
  rw [hfour, hthree] at hseven
  exact ⟨dvd_rfl, hseven, hfour, hthree⟩

end ExamVariants.Generator
