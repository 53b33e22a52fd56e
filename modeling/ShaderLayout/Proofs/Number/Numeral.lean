import Mathlib
import ShaderLayout.Number.Integer

namespace ShaderLayout.Number.Numeral

lemma digits?_lt {s : List Char} {ds : List Nat} (h : digits? s = some ds) : ∀ d ∈ ds, d < 10 := by
  induction s using digits?.induct generalizing ds with
  | case1 => cases h
  | case2 c =>
    obtain ⟨d, hd, rfl⟩ := Option.map_eq_some_iff.1 h
    simpa using Digit.value?_lt hd
  | case3 c r ih =>
    simp only [digits?, Option.bind_eq_bind, Option.bind_eq_some_iff, Option.pure_def, Option.some.injEq] at h
    obtain ⟨d, hd, ds', hds, rfl⟩ := h
    exact List.forall_mem_cons.2 ⟨Digit.value?_lt hd, ih hds⟩
  | case4 c r hr hu ih =>
    rw [digits?.eq_4 c r hr hu] at h
    simp only [Option.bind_eq_bind, Option.bind_eq_some_iff, Option.pure_def, Option.some.injEq] at h
    obtain ⟨d, hd, ds', hds, rfl⟩ := h
    exact List.forall_mem_cons.2 ⟨Digit.value?_lt hd, ih hds⟩

lemma ofDigits_lt {ds : List Nat} (h : ∀ d ∈ ds, d < 10) : ofDigits ds < 10 ^ ds.length := by
  induction ds using List.reverseRecOn with
  | nil => simp [ofDigits]
  | append_singleton ds d ih =>
    have hd : d < 10 := h d (by simp)
    have hds := ih fun d' hd' => h d' (by simp [hd'])
    simp only [ofDigits, List.foldl_append, List.foldl_cons, List.foldl_nil, List.length_append,
      List.length_singleton, pow_succ] at hds ⊢
    omega

lemma bound_eq : bound = 10 ^ maxDigits := by
  -- The bound is too large to be evaluated, so its exponent becomes a variable.
  delta bound
  generalize maxDigits = m
  rfl

lemma pow_le_bound {k : Nat} (hk : k ≤ maxDigits) : 10 ^ k ≤ bound := by
  rw [bound_eq]
  exact Nat.pow_le_pow_right (by decide) hk

lemma natural?_lt {s : List Char} {n : Nat} (h : natural? s = some n) : n < bound := by
  simp only [natural?, Option.bind_eq_bind, Option.bind_eq_some_iff] at h
  obtain ⟨ds, hds, hn⟩ := h
  split at hn
  · next hle =>
    cases hn
    exact (ofDigits_lt (digits?_lt hds)).trans_le (pow_le_bound hle)
  · cases hn

lemma signed_of_read? {s : List Char} {n : Int} (h : read? s = some n) : ∃ sign ∈ [[], ['+'], ['-']], ∃ r k,
    Text.Blank.trim s = sign ++ r ∧ natural? r = some k ∧ n = (if sign = ['-'] then -1 else 1) * (k : Int) := by
  rw [read?] at h
  split at h
  all_goals
    simp only [Option.map_eq_some_iff, Option.bind_eq_bind, Option.bind_eq_some_iff, Option.pure_def,
      Option.some.injEq] at h
    obtain ⟨_, ⟨k, hk, rfl⟩, rfl⟩ := h
  · next r ht => exact ⟨['-'], by simp, r, k, ht, hk, by simp⟩
  · next r ht => exact ⟨['+'], by simp, r, k, ht, hk, by simp⟩
  · exact ⟨[], by simp, _, k, rfl, hk, by simp⟩

lemma read?_writable {s : List Char} {n : Int} (h : read? s = some n) : Writable n := by
  obtain ⟨sign, -, r, k, -, hk, rfl⟩ := signed_of_read? h
  have habs : ((if sign = ['-'] then -1 else 1) * (k : Int)).natAbs = k := by
    split <;> simp
  rw [Writable, habs]
  exact natural?_lt hk

lemma literal?_writable {s : String} {n : Int} {suffix : Suffix} (h : literal? s = some (n, suffix)) :
    Writable n := by
  simp only [literal?, Option.bind_eq_bind, Option.bind_eq_some_iff] at h
  obtain ⟨m, hm, h⟩ := h
  split at h
  · cases h
  · cases h
    exact read?_writable hm

lemma writable_of_lt {n : Int} (h : -10 ^ 12 < n ∧ n < 10 ^ 12) : Writable n := by
  have hb : 10 ^ 12 ≤ bound := pow_le_bound (by decide)
  rw [Writable]
  omega

lemma writable_of_natAbs_le {m n : Int} (hn : Writable n) (h : m.natAbs ≤ n.natAbs) : Writable m :=
  h.trans_lt hn

lemma text_toList (n : Int) : ∃ sign ∈ [[], ['+'], ['-']], (text n).toList = sign ++ Nat.toDigits 10 n.natAbs ∧
    n = (if sign = ['-'] then -1 else 1) * (n.natAbs : Int) := by
  cases n with
  | ofNat k => exact ⟨[], by simp, Nat.toList_repr, by simp⟩
  | negSucc k =>
    refine ⟨['-'], by simp, ?_, by simp; omega⟩
    change ("-" ++ (k + 1).repr).toList = _
    rw [String.toList_append, Nat.toList_repr]
    rfl

end ShaderLayout.Number.Numeral
