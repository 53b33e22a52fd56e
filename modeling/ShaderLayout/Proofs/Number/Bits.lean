import Mathlib
import ShaderLayout.Number.Integer

/-! "And" and "or" bit by bit. Their sum is that of the numbers: each of them counts the bits in common once. -/

namespace ShaderLayout.Number.Bits

section Naturals

variable (m n : Nat)

lemma or_add_and : (m ||| n) + (m &&& n) = m + n := by
  induction m using Nat.binaryRec generalizing n with
  | zero => simp
  | bit b m ih =>
    cases n using Nat.bitCasesOn with
    | bit c n =>
      have hn := ih n
      rw [Nat.lor_bit, Nat.land_bit]
      cases b <;> cases c <;> simp [Nat.bit_val] <;> omega

lemma xor_and_eq_ldiff : m ^^^ (m &&& n) = Nat.ldiff m n := by
  apply Nat.eq_of_testBit_eq
  intro i
  rw [Nat.testBit_xor, Nat.testBit_and, Nat.testBit_ldiff]
  cases m.testBit i <;> cases n.testBit i <;> rfl

lemma ldiff_add_and : Nat.ldiff m n + (m &&& n) = m := by
  have hor : Nat.ldiff m n ||| (m &&& n) = m := by
    apply Nat.eq_of_testBit_eq
    intro i
    rw [Nat.testBit_or, Nat.testBit_ldiff, Nat.testBit_and]
    cases m.testBit i <;> cases n.testBit i <;> rfl
  have hand : Nat.ldiff m n &&& (m &&& n) = 0 := by
    apply Nat.eq_of_testBit_eq
    intro i
    rw [Nat.testBit_and, Nat.testBit_ldiff, Nat.testBit_and, Nat.zero_testBit]
    cases m.testBit i <;> cases n.testBit i <;> rfl
  have hsum := or_add_and (Nat.ldiff m n) (m &&& n)
  rw [hor, hand] at hsum
  exact hsum.symm

end Naturals

variable (a b : Int)

lemma land_eq : land a b = Int.land a b := by
  cases a with
  | ofNat m =>
    cases b with
    | ofNat n => rfl
    | negSucc n => exact congrArg Int.ofNat (xor_and_eq_ldiff m n)
  | negSucc m =>
    cases b with
    | ofNat n =>
      rw [land, Nat.and_comm, xor_and_eq_ldiff]
      rfl
    | negSucc n => rfl

lemma lor_eq : lor a b = Int.lor a b := by
  cases a with
  | ofNat m =>
    cases b with
    | ofNat n => rfl
    | negSucc n =>
      rw [lor, Nat.and_comm, xor_and_eq_ldiff]
      rfl
  | negSucc m =>
    cases b with
    | ofNat n => exact congrArg Int.negSucc (xor_and_eq_ldiff m n)
    | negSucc n => rfl

lemma testBit_land (i : Nat) : (land a b).testBit i = (a.testBit i && b.testBit i) := by
  rw [land_eq, Int.testBit_land]

lemma testBit_lor (i : Nat) : (lor a b).testBit i = (a.testBit i || b.testBit i) := by
  rw [lor_eq, Int.testBit_lor]

lemma lor_add_land : lor a b + land a b = a + b := by
  rw [lor_eq, land_eq]
  cases a with
  | ofNat m =>
    cases b with
    | ofNat n =>
      have := or_add_and m n
      simp only [Int.lor, Int.land, Int.ofNat_eq_natCast]
      omega
    | negSucc n =>
      have hm := ldiff_add_and m n
      have hn := ldiff_add_and n m
      rw [Nat.and_comm] at hn
      simp only [Int.lor, Int.land, Int.ofNat_eq_natCast, Int.negSucc_eq]
      omega
  | negSucc m =>
    cases b with
    | ofNat n =>
      have hm := ldiff_add_and m n
      have hn := ldiff_add_and n m
      rw [Nat.and_comm] at hn
      simp only [Int.lor, Int.land, Int.ofNat_eq_natCast, Int.negSucc_eq]
      omega
    | negSucc n =>
      have := or_add_and m n
      simp only [Int.lor, Int.land, Int.negSucc_eq]
      omega

variable {a b}

lemma eq_of_testBit_eq (h : ∀ i, a.testBit i = b.testBit i) : a = b := by
  have hzero : ∀ m n : Nat, m.testBit (m + n) = false := by
    intro m n
    apply Nat.testBit_eq_false_of_lt
    exact Nat.lt_two_pow_self.trans_le (Nat.pow_le_pow_right (by omega) (by omega))
  have hmixed : ∀ m n : Nat, m.testBit (m + n) ≠ !n.testBit (m + n) := by
    intro m n
    rw [hzero m n, Nat.add_comm, hzero n m]
    decide
  cases a with
  | ofNat m =>
    cases b with
    | ofNat n => exact congrArg Int.ofNat (Nat.eq_of_testBit_eq h)
    | negSucc n => exact absurd (h (m + n)) (hmixed m n)
  | negSucc m =>
    cases b with
    | ofNat n => exact absurd (h (n + m)).symm (hmixed n m)
    | negSucc n => exact congrArg Int.negSucc (Nat.eq_of_testBit_eq fun i => Bool.not_inj (h i))

lemma land_lor_self (a b : Int) : land (lor a b) b = b := by
  apply eq_of_testBit_eq
  intro i
  rw [testBit_land, testBit_lor]
  cases a.testBit i <;> cases b.testBit i <;> rfl

end ShaderLayout.Number.Bits
