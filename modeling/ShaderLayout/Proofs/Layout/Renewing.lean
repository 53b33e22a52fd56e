import ShaderLayout.Proofs.Layout.Filling

namespace ShaderLayout

def Shape.handles : Shape → List Handle
  | .pointer base => [base]
  | .array base .dynamic _ => [base]
  | .array base (.constant c) _ => [base, c]
  | .struct members => members.map StructMember.type
  | _ => []

def ConstantValue.handles : ConstantValue → List Handle
  | .scalar .. => []
  | .composite type components => type :: components

namespace Layout

open Number.Numeral (maxDigits)

variable {types : Arena GpuType} {constants : Arena Constant} {k : Nat} {t : Layouts} {e : LayoutError}

def Unwritable (types : Arena GpuType) (constants : Arena Constant) : Prop :=
  ∃ k t e, FailsAt types constants k t e ∧ ∃ n ∈ e.numbers, 10 ^ maxDigits ≤ n.natAbs

/-- Every handle, of an entry or inside one, has few enough digits. -/
structure ShortHandles (types : Arena GpuType) (constants : Arena Constant) : Prop where
  own : types.size ≤ 10 ^ maxDigits
  inTypes : ∀ type ∈ types.toList, ∀ h ∈ type.shape.handles, h.index < 10 ^ maxDigits
  inConstants : ∀ c ∈ constants.toList, ∀ h ∈ c.value.handles, h.index < 10 ^ maxDigits

lemma FailsAt.surfaced_cases (hf : FailsAt types constants k t e) :
    surfaced e = .layout e ∨ surfaced e = .numeralTooLong ∧ Unwritable types constants := by
  by_cases hw : ∀ n ∈ e.numbers, n.natAbs < 10 ^ maxDigits
  · exact .inl (if_pos hw)
  · have hlong : ∃ n ∈ e.numbers, 10 ^ maxDigits ≤ n.natAbs := by
      simpa only [not_forall, not_lt, exists_prop] using hw
    exact .inr ⟨if_neg hw, k, t, e, hf, hlong⟩

lemma table_error_cases {f : Failure} (h : Layout.table types constants = .error f) :
    (∃ k t e, FailsAt types constants k t e ∧ f = .layout e) ∨ f = .numeralTooLong ∧ Unwritable types constants := by
  obtain ⟨t, hfill, -⟩ | ⟨t, e, -, hf⟩ := fill_ends types constants
  · rw [Layout.table, hfill] at h
    cases h
  · rw [hf.table] at h
    cases h
    rcases hf.surfaced_cases with hs | ⟨hs, hu⟩
    · exact .inl ⟨_, t, e, hf, hs⟩
    · exact .inr ⟨hs, hu⟩

lemma numbers_of_not_integer {v : ConstantValue} (hv : ∀ n, ¬ Integer v n) {n : Int} (hn : n ∈ v.numbers) :
    ∃ h ∈ v.handles, n = h.index := by
  cases v with
  | composite type components => exact ⟨type, List.mem_cons_self, List.mem_singleton.1 hn⟩
  | scalar width v =>
    cases v with
    | sint m => exact (hv m (.sint width m)).elim
    | uint m => exact (hv m (.uint width m)).elim
    | float x => cases hn
    | bool b => cases hn

lemma ShortHandles.raised (hh : ShortHandles types constants) {type : GpuType} (htype : types.get? ⟨k⟩ = some type)
    (he : Raises t constants ⟨k⟩ type.shape e) {n : Int} (hn : n ∈ e.numbers) : n.natAbs < 10 ^ maxDigits := by
  have hk : k < 10 ^ maxDigits := (Arena.index_lt_of_get? htype).trans_le hh.own
  have hhandles := hh.inTypes type (Arena.mem_of_get? htype)
  generalize type.shape = s at he hhandles
  cases he with
  | @lengthMissing base c stride hc =>
    obtain rfl := List.mem_singleton.1 hn
    exact hhandles c (by simp [Shape.handles])
  | @lengthNotInteger base c stride v hv hi =>
    rcases List.mem_cons.1 hn with rfl | hn
    · exact hk
    rcases List.mem_cons.1 hn with rfl | hn
    · exact hhandles c (by simp [Shape.handles])
    obtain ⟨h, hh', rfl⟩ := numbers_of_not_integer hi hn
    exact hh.inConstants v (Arena.mem_of_get? hv) h hh'
  | @elementMissing base length =>
    obtain rfl := List.mem_singleton.1 hn
    exact hhandles base (by cases length <;> simp [Shape.handles])
  | @memberMissing before after m =>
    obtain rfl := List.mem_singleton.1 hn
    exact hhandles m.type (by simp [Shape.handles])

end Layout

namespace LayoutError

end LayoutError

namespace Workspace

open Layout
open Number.Numeral (maxDigits)

variable (w : Workspace)

end Workspace

end ShaderLayout
