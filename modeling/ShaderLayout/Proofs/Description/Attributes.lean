import Mathlib
import ShaderLayout.Description.Attribute

namespace ShaderLayout.Description

open Number

def Granted (e : AttributeKind × Int) : Prop := 0 < e.2 ∧ (e.1 = .align → ∃ k : Nat, e.2 = 2 ^ k)

namespace Attribute

lemma isPowerOfTwo_iff {n : Int} : isPowerOfTwo n = true ↔ ∃ k : Nat, n = 2 ^ k := by
  constructor
  · intro h
    simp only [isPowerOfTwo, Bool.and_eq_true, decide_eq_true_eq, beq_iff_eq] at h
    obtain ⟨hn, hl⟩ := h
    obtain ⟨m, rfl⟩ := Int.eq_ofNat_of_zero_le hn.le
    have hm : m ≠ 0 := by omega
    have he : ((m : Int) - 1) = ((m - 1 : Nat) : Int) := by omega
    rw [he] at hl
    have hz : m &&& (m - 1) = 0 := Int.ofNat.inj hl
    obtain ⟨k, rfl⟩ := (Nat.and_sub_one_eq_zero_iff_isPowerOfTwo hm).mp hz
    exact ⟨k, by simp⟩
  · rintro ⟨k, rfl⟩
    have hp : 0 < 2 ^ k := Nat.two_pow_pos k
    have hz := (Nat.and_sub_one_eq_zero_iff_isPowerOfTwo hp.ne').mpr ⟨k, rfl⟩
    have he : (2 : Int) ^ k = ((2 ^ k : Nat) : Int) := by simp
    have he' : ((2 ^ k : Nat) : Int) - 1 = ((2 ^ k - 1 : Nat) : Int) := by omega
    simp only [isPowerOfTwo, Bool.and_eq_true, decide_eq_true_eq, beq_iff_eq]
    refine ⟨by positivity, ?_⟩
    rw [he, he']
    exact congrArg Int.ofNat hz

variable {allowed : List AttributeKind} {target : String} {accepted : Accepted} {a : Attribute}

lemma value?_eq_ok {kind : AttributeKind} {n : Int} (h : a.value? kind = .ok n) :
    (Numeral.literal? a.value.text).map Prod.fst = some n ∧ 0 < n ∧
      (kind = .align → isPowerOfTwo n = true) := by
  rw [value?] at h
  split at h
  · cases h
  · next m suffix hl =>
    split at h
    · cases h
    split at h
    · cases h
    · next hpos hpow =>
      cases h
      rw [hl]
      refine ⟨rfl, Int.not_le.mp hpos, fun hk => ?_⟩
      by_contra hn
      exact hpow ⟨hk, Bool.eq_false_iff.mpr hn⟩

lemma value?_isError {kind : AttributeKind} {p : Problem} (h : a.value? kind = .error p) :
    p.isError = true := by
  rw [value?] at h
  split at h
  · cases h
    rfl
  · split at h
    · cases h
      rfl
    split at h
    · cases h
      rfl
    · cases h

lemma judge_eq_ok {e : AttributeKind × Int} (h : judge allowed target accepted a = .ok e) :
    AttributeKind.ofName? a.name.text = some e.1 ∧ accepted.lookup e.1 = none ∧ a.value? e.1 = .ok e.2 := by
  rw [judge] at h
  split at h
  · cases h
  · next kind hk =>
    split at h
    · cases h
    split at h
    · cases h
    · next hl =>
      cases hv : a.value? kind with
      | error p => rw [hv] at h; cases h
      | ok n =>
        rw [hv] at h
        cases h
        exact ⟨hk, Option.not_isSome_iff_eq_none.mp hl, hv⟩

lemma judge_granted {e : AttributeKind × Int} (h : judge allowed target accepted a = .ok e) : Granted e := by
  obtain ⟨_, _, hv⟩ := judge_eq_ok h
  obtain ⟨_, hpos, hpow⟩ := value?_eq_ok hv
  exact ⟨hpos, fun hk => isPowerOfTwo_iff.mp (hpow hk)⟩

lemma judge_isError {p : Problem} (h : judge allowed target accepted a = .error p) : p.isError = true := by
  rw [judge] at h
  split at h
  · cases h
    rfl
  · next kind hk =>
    split at h
    · cases h
      rfl
    split at h
    · cases h
      rfl
    · cases hv : a.value? kind with
      | ok n => rw [hv] at h; cases h
      | error p =>
        rw [hv] at h
        cases h
        exact value?_isError hv

lemma judgeAll_granted (allowed : List AttributeKind) (target : String) (accepted : Accepted)
    (as : List Attribute) (h : ∀ e ∈ accepted, Granted e) :
    ∀ e ∈ (judgeAll allowed target accepted as).1, Granted e := by
  induction as generalizing accepted with
  | nil => exact h
  | cons a rest ih =>
    rw [judgeAll]
    cases hj : judge allowed target accepted a with
    | error p => exact ih accepted h
    | ok e =>
      apply ih
      intro e' he'
      rcases List.mem_append.mp he' with he' | he'
      · exact h e' he'
      · rw [List.mem_singleton.mp he']
        exact judge_granted hj

lemma judgeAll_isError (allowed : List AttributeKind) (target : String) (accepted : Accepted)
    (as : List Attribute) : ∀ f ∈ (judgeAll allowed target accepted as).2, f.problem.isError = true := by
  induction as generalizing accepted with
  | nil => simp [judgeAll]
  | cons a rest ih =>
    rw [judgeAll]
    cases hj : judge allowed target accepted a with
    | ok e => exact ih _
    | error p =>
      intro f hf
      rcases List.mem_cons.mp hf with rfl | hf
      · exact judge_isError hj
      · exact ih accepted f hf

end Attribute

lemma Granted.of_lookup {accepted : Accepted} (h : ∀ e ∈ accepted, Granted e) {kind : AttributeKind} {n : Int}
    (hn : accepted.lookup kind = some n) : Granted (kind, n) := by
  obtain ⟨before, after, rfl, _⟩ := List.lookup_eq_some_iff.mp hn
  exact h _ (by simp)

end ShaderLayout.Description
