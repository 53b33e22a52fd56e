import ShaderLayout.Description.Table
import ShaderLayout.Proofs.Arena

/-!
Running a build. `Ends m s Q` says that `m`, started in `s`, ends with a result and a state in `Q`.
While a type expression is built the arenas and the findings only grow, and no name is defined.
-/

namespace ShaderLayout.Description

variable {α β : Type}

structure Adds (s s' : Progress) : Prop where
  types : s.table.types.toList <+: s'.table.types.toList
  constants : s.table.constants.toList <+: s'.table.constants.toList
  typeNames : s'.table.typeNames = s.table.typeNames
  constantNames : s'.table.constantNames = s.table.constantNames
  findings : s.findings <+: s'.findings

def Erred (s s' : Progress) : Prop :=
  ∃ f ∈ s'.findings.drop s.findings.length, f.problem.isError = true

namespace Adds

variable {s s' s'' : Progress}

lemma refl (s : Progress) : Adds s s :=
  ⟨List.prefix_rfl, List.prefix_rfl, rfl, rfl, List.prefix_rfl⟩

lemma trans (h : Adds s s') (h' : Adds s' s'') : Adds s s'' :=
  ⟨h.types.trans h'.types, h.constants.trans h'.constants, h'.typeNames.trans h.typeNames,
    h'.constantNames.trans h.constantNames, h.findings.trans h'.findings⟩

lemma types_size_le (h : Adds s s') : s.table.types.size ≤ s'.table.types.size :=
  Arena.size_mono h.types

lemma erred_iff (h : Adds s s') (h' : Adds s' s'') : Erred s s'' ↔ Erred s s' ∨ Erred s' s'' := by
  obtain ⟨a, ha⟩ := h.findings
  obtain ⟨b, hb⟩ := h'.findings
  simp only [Erred, ← hb, ← ha, List.append_assoc, List.drop_left, List.mem_append]
  rw [← List.append_assoc, List.drop_left]
  constructor
  · rintro ⟨f, hf | hf, he⟩
    · exact .inl ⟨f, hf, he⟩
    · exact .inr ⟨f, hf, he⟩
  · rintro (⟨f, hf, he⟩ | ⟨f, hf, he⟩)
    · exact ⟨f, .inl hf, he⟩
    · exact ⟨f, .inr hf, he⟩

end Adds

lemma not_erred_self (s : Progress) : ¬ Erred s s := by
  simp [Erred]

lemma not_erred_of_findings {s s' : Progress} (h : s'.findings = s.findings) : ¬ Erred s s' := by
  simp [Erred, h]

lemma Erred.mem {s s' : Progress} (h : Erred s s') : ∃ f ∈ s'.findings, f.problem.isError = true := by
  obtain ⟨f, hf, he⟩ := h
  exact ⟨f, List.mem_of_mem_drop hf, he⟩

def Ends (m : Build α) (s : Progress) (Q : α → Progress → Prop) : Prop := Q (m.run s).1 (m.run s).2

namespace Ends

variable {m : Build α} {f : α → Build β} {s : Progress} {P : α → Progress → Prop}
  {Q : β → Progress → Prop}

lemma pure {a : α} (h : P a s) : Ends (Pure.pure a) s P := h

lemma bind (hm : Ends m s P) (hf : ∀ a s', P a s' → Ends (f a) s' Q) : Ends (m >>= f) s Q :=
  hf _ _ hm

lemma mono {P' : α → Progress → Prop} (hm : Ends m s P) (h : ∀ a s', P a s' → P' a s') : Ends m s P' :=
  h _ _ hm

lemma and {P' : α → Progress → Prop} (hm : Ends m s P) (hm' : Ends m s P') :
    Ends m s fun a s' => P a s' ∧ P' a s' :=
  ⟨hm, hm'⟩

lemma getTable {f : Table → Build β} (h : Ends (f s.table) s Q) : Ends (Build.getTable >>= f) s Q := h

lemma fail {P : Option α → Progress → Prop} {p : Problem} {r : Region}
    (h : P none { s with findings := s.findings ++ [⟨p, r⟩] }) : Ends (Build.fail p r) s P := h

end Ends

lemma adds_findings (s : Progress) (fs : List Finding) : Adds s { s with findings := s.findings ++ fs } :=
  ⟨List.prefix_rfl, List.prefix_rfl, rfl, rfl, List.prefix_append ..⟩

lemma erred_findings_iff {s : Progress} {fs : List Finding} :
    Erred s { s with findings := s.findings ++ fs } ↔ ∃ f ∈ fs, f.problem.isError = true := by
  simp [Erred]

end ShaderLayout.Description
