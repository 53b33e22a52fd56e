import Mathlib
import ShaderLayout.Layout.Placement
import ShaderLayout.Proofs.Number.Bits

namespace ShaderLayout.Layout

open Number

lemma land_bounds {a o : Int} (ha : 0 ≤ a) (ho : 0 ≤ o) :
    0 ≤ Bits.land o a ∧ Bits.land o a ≤ a := by
  obtain ⟨m, rfl⟩ := Int.eq_ofNat_of_zero_le ha
  obtain ⟨n, rfl⟩ := Int.eq_ofNat_of_zero_le ho
  change (0 : Int) ≤ ((n &&& m : Nat) : Int) ∧ ((n &&& m : Nat) : Int) ≤ m
  have := Nat.and_le_right (n := n) (m := m)
  omega

lemma le_roundUp {a o : Int} (ha : 0 ≤ a) (ho : 0 ≤ o) : o ≤ roundUp a o := by
  have := land_bounds ha ho
  simp only [roundUp]
  split <;> omega

lemma land_le_left {a o : Int} (ha : 0 ≤ a) (ho : 0 ≤ o) : Bits.land o a ≤ o := by
  obtain ⟨m, rfl⟩ := Int.eq_ofNat_of_zero_le ha
  obtain ⟨n, rfl⟩ := Int.eq_ofNat_of_zero_le ho
  change ((n &&& m : Nat) : Int) ≤ n
  have := Nat.and_le_left (n := n) (m := m)
  omega

lemma roundUp_eq_self_of_lt {a o : Int} (ha : 0 ≤ a) (ho : 0 ≤ o) (h : roundUp a o < a) : roundUp a o = o := by
  have := land_le_left ha ho
  simp only [roundUp] at h ⊢
  split
  · rfl
  · next hne =>
    rw [if_neg hne] at h
    omega

lemma roundUp_eq_lor {a o : Int} (h : Bits.land o a ≠ 0) : roundUp a o = Bits.lor o a := by
  have := Bits.lor_add_land o a
  simp only [roundUp, if_neg h]
  omega

lemma roundUp_lt_two_pow {a o : Int} {k : Nat} (ha : 0 ≤ a) (ho : 0 ≤ o) (ha' : a < 2 ^ k) (ho' : o < 2 ^ k) :
    roundUp a o < 2 ^ k := by
  by_cases h : Bits.land o a = 0
  · rw [roundUp_of_land_eq_zero h]
    exact ho'
  · rw [roundUp_eq_lor h]
    obtain ⟨m, rfl⟩ := Int.eq_ofNat_of_zero_le ha
    obtain ⟨n, rfl⟩ := Int.eq_ofNat_of_zero_le ho
    have hor : n ||| m < 2 ^ k := Nat.or_lt_two_pow (by exact_mod_cast ho') (by exact_mod_cast ha')
    change ((n ||| m : Nat) : Int) < 2 ^ k
    exact_mod_cast hor

lemma roundUp_roundUp (a o : Int) : roundUp a (roundUp a o) = roundUp a o := by
  by_cases h : Bits.land o a = 0
  · rw [roundUp_of_land_eq_zero h, roundUp_of_land_eq_zero h]
  · rw [roundUp_eq_lor h]
    -- The offset has all bits of the alignment now, so what is added is taken away again.
    have hself := Bits.land_lor_self o a
    simp only [roundUp, hself]
    split <;> omega

@[simp] lemma roundUp_zero (a : Int) : roundUp a 0 = 0 := by
  apply roundUp_of_land_eq_zero
  cases a with
  | ofNat n => exact congrArg Int.ofNat (Nat.zero_and n)
  | negSucc n => exact congrArg Int.ofNat (by simp)

lemma roundUp_eq_zero_iff {a o : Int} (ha : 0 ≤ a) (ho : 0 ≤ o) : roundUp a o = 0 ↔ o = 0 := by
  constructor
  · intro h
    have := le_roundUp ha ho
    omega
  · rintro rfl
    exact roundUp_zero a

lemma roundUp_lt {a o : Int} (ha : 0 ≤ a) (ho : 0 ≤ o) : roundUp a o < o + max 1 a := by
  have := land_bounds ha ho
  simp only [roundUp]
  split <;> omega

lemma land_two_pow (o : Int) (k : Nat) : Bits.land o (2 ^ k) = 0 ∨ Bits.land o (2 ^ k) = 2 ^ k := by
  have hpow : (2 : Int) ^ k = ((2 ^ k : Nat) : Int) := by simp
  rw [hpow]
  cases o with
  | ofNat m =>
    change ((m &&& 2 ^ k : Nat) : Int) = 0 ∨ ((m &&& 2 ^ k : Nat) : Int) = _
    rw [Nat.and_two_pow]
    cases m.testBit k with
    | false => simp
    | true => simp
  | negSucc m =>
    change ((2 ^ k ^^^ (m &&& 2 ^ k) : Nat) : Int) = 0 ∨ ((2 ^ k ^^^ (m &&& 2 ^ k) : Nat) : Int) = _
    rw [Nat.and_two_pow]
    cases m.testBit k with
    | false => simp
    | true => simp

lemma roundUp_two_pow (k : Nat) (o : Int) : roundUp (2 ^ k) o = o := by
  simp only [roundUp]
  rcases land_two_pow o k with h | h
  · rw [if_pos h]
  · rw [h]
    split <;> omega

/-- Rounding up in closed form, for alignments and offsets of either sign, and what follows from it. -/
theorem roundUp_exact (a o : Int) :
    (∀ i, (Bits.land o a).testBit i = (o.testBit i && a.testBit i)) ∧
    (∀ i, (Bits.lor o a).testBit i = (o.testBit i || a.testBit i)) ∧
    roundUp a o = (if Bits.land o a = 0 then o else Bits.lor o a) ∧
    roundUp a (roundUp a o) = roundUp a o ∧
    (∀ k : Nat, roundUp (2 ^ k) o = o) ∧
    roundUp a 0 = 0 ∧
    (0 ≤ a → 0 ≤ o → o ≤ roundUp a o ∧ roundUp a o < o + max 1 a) := by
  refine ⟨Bits.testBit_land o a, Bits.testBit_lor o a, ?closed, roundUp_roundUp a o, fun k => roundUp_two_pow k o,
    roundUp_zero a, fun ha ho => ⟨le_roundUp ha ho, roundUp_lt ha ho⟩⟩
  case closed =>
    split
    · next h => exact roundUp_of_land_eq_zero h
    · next h => exact roundUp_eq_lor h

theorem roundUp_exact_twelve :
    (0 : Int) ≤ 12 ∧ (0 : Int) ≤ 5 ∧ roundUp 12 5 = 13 ∧ roundUp 12 13 = 13 ∧
      5 ≤ roundUp 12 5 ∧ roundUp 12 5 < 5 + max 1 12 := by
  obtain ⟨-, -, hclosed, hagain, -, -, hbounds⟩ := roundUp_exact 12 5
  have hvalue : roundUp 12 5 = 13 := hclosed.trans (by decide)
  rw [hvalue] at hagain
  exact ⟨by decide, by decide, hvalue, hagain, hbounds (by decide) (by decide)⟩

end ShaderLayout.Layout
