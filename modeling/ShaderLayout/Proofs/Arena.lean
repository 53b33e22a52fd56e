import Mathlib
import ShaderLayout.Arena

namespace ShaderLayout.Arena

variable {α : Type} {a b : Arena α} {x y : α} {h : Handle}

lemma index_lt_of_get? (hx : a.get? h = some x) : h.index < a.size := (Array.getElem?_eq_some_iff.1 hx).1

lemma get?_of_index_lt (hh : h.index < a.size) : ∃ x, a.get? h = some x := ⟨_, Array.getElem?_eq_getElem hh⟩

lemma mem_of_get? (hx : a.get? h = some x) : x ∈ a.toList := by
  rw [get?_eq_toList] at hx
  exact List.mem_of_getElem? hx

lemma get?_mono (hab : a.toList <+: b.toList) (hx : a.get? h = some x) : b.get? h = some x := by
  rw [get?_eq_toList] at hx ⊢
  obtain ⟨hi, rfl⟩ := List.getElem?_eq_some_iff.1 hx
  exact List.prefix_iff_getElem?.1 hab _ hi

lemma size_mono (hab : a.toList <+: b.toList) : a.size ≤ b.size := by
  simpa [toList, size] using hab.length_le

lemma writes_mono (hab : a.toList <+: b.toList) (hh : a.Writes h) : b.Writes h :=
  hh.imp_left fun hlt => hlt.trans_le (size_mono hab)

lemma get?_append_cases (hy : (a.append x).get? h = some y) : a.get? h = some y ∨ h = a.next ∧ y = x := by
  simp only [get?, append, Array.getElem?_push] at hy
  split at hy
  · next he =>
    cases hy
    obtain ⟨i⟩ := h
    exact .inr ⟨congrArg Handle.mk he, rfl⟩
  · exact .inl hy

variable [BEq α]

lemma find?_eq_toList (a : Arena α) (x : α) : a.find? x = (a.toList.findIdx? (· == x)).map Handle.mk := by
  obtain ⟨⟨xs⟩⟩ := a
  simp [find?, toList]

lemma find?_eq_none_iff : a.find? x = none ↔ ∀ y ∈ a.toList, (y == x) = false := by
  rw [find?_eq_toList, Option.map_eq_none_iff, List.findIdx?_eq_none_iff]

lemma find?_of_prefix (hab : a.toList <+: b.toList) (hx : a.find? x = some h) : b.find? x = some h := by
  rw [find?_eq_toList, Option.map_eq_some_iff] at hx ⊢
  obtain ⟨i, hi, rfl⟩ := hx
  exact ⟨i, hab.findIdx?_eq_some hi, rfl⟩

lemma find?_append_next (hx : a.find? x = none) (hxx : (x == x) = true) : (a.append x).find? x = some a.next := by
  rw [find?_eq_toList, Option.map_eq_none_iff] at hx
  rw [find?_eq_toList, toList_append, List.findIdx?_append, hx]
  simp [List.findIdx?_cons, next, size, toList, hxx]

lemma fetchOrAppend_of_find? (hx : a.find? x = some h) : a.fetchOrAppend x = (h, a) := by
  rw [fetchOrAppend, hx]

lemma fetchOrAppend_of_find?_eq_none (hx : a.find? x = none) : a.fetchOrAppend x = (a.next, a.append x) := by
  rw [fetchOrAppend, hx]

lemma fetchOrAppend_cases (a : Arena α) (x : α) :
    (∃ h y, a.fetchOrAppend x = (h, a) ∧ a.get? h = some y ∧ (y == x) = true) ∨
      a.fetchOrAppend x = (a.next, a.append x) := by
  cases hf : a.find? x with
  | none => exact .inr (fetchOrAppend_of_find?_eq_none hf)
  | some h =>
    obtain ⟨i, hi, rfl⟩ := Option.map_eq_some_iff.mp hf
    obtain ⟨hlt, he, _⟩ := Array.findIdx?_eq_some_iff_getElem.mp hi
    exact .inl ⟨_, a.items[i], fetchOrAppend_of_find? hf, Array.getElem?_eq_getElem hlt, he⟩

lemma prefix_fetchOrAppend (a : Arena α) (x : α) : a.toList <+: (a.fetchOrAppend x).2.toList := by
  rw [fetchOrAppend]
  cases a.find? x with
  | some h => exact List.prefix_rfl
  | none => simp

lemma find?_fetchOrAppend (a : Arena α) (hxx : (x == x) = true) :
    (a.fetchOrAppend x).2.find? x = some (a.fetchOrAppend x).1 := by
  rw [fetchOrAppend]
  cases hx : a.find? x with
  | some h => exact hx
  | none => exact find?_append_next hx hxx

end ShaderLayout.Arena
