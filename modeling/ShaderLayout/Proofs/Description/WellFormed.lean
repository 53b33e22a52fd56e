import ShaderLayout.Proofs.Description.Attributes
import ShaderLayout.Proofs.Description.Run

/-!
What holds of a table while a description is built. `Table.WellFormed` is kept by every step, also by
those that report an error; a step has no result exactly when it reports one.
-/

namespace ShaderLayout

namespace Scalar

def Plain (s : Scalar) : Prop :=
  s.width ∈ [1, 2, 4, 8] ∧ (s.kind = .float → s.width ∈ [2, 4, 8])

end Scalar

namespace StructMember

def Formed (i : Nat) (m : StructMember) : Prop :=
  m.type.index < i ∧ (∀ a ∈ m.align, ∃ k : Nat, a = 2 ^ k) ∧ ∀ s ∈ m.size, 0 < s

end StructMember

namespace Shape

def Formed (i n : Nat) : Shape → Prop
  | .scalar s => s.Plain
  | .vector _ c => c.Plain
  | .matrix _ _ width => width ∈ [2, 4, 8]
  | .pointer base => base.index < i
  | .valuePointer _ s => s.Plain
  | .array base length stride =>
    base.index < i ∧ (∀ c, length = .constant c → c.index < n) ∧ ∀ s ∈ stride, 0 < s
  | .struct members => (∀ m ∈ members, m.Formed i) ∧ (members.map StructMember.name).Nodup
  | .image .. => True
  | .sampler _ => True

lemma Formed.mono {i i' n n' : Nat} (hi : i ≤ i') (hn : n ≤ n') {s : Shape} (h : s.Formed i n) :
    s.Formed i' n' := by
  cases s with
  | pointer base => exact lt_of_lt_of_le h hi
  | array base length stride =>
    obtain ⟨h1, h2, h3⟩ := h
    exact ⟨by omega, fun c hc => (h2 c hc).trans_le hn, h3⟩
  | struct members =>
    obtain ⟨h1, h2⟩ := h
    exact ⟨fun m hm => ⟨(h1 m hm).1.trans_le hi, (h1 m hm).2⟩, h2⟩
  | _ => exact h

end Shape

namespace Description

open Number

def Constant.Plain (c : Constant) : Prop :=
  ∃ width value, c.value = .scalar width value ∧ width ∈ [1, 2, 4, 8]

structure Table.WellFormed (t : Table) : Prop where
  shapes : ∀ i type, t.types.get? ⟨i⟩ = some type → type.shape.Formed i t.constants.size
  constants : ∀ c v, t.constants.get? c = some v → Constant.Plain v
  typeNames : ∀ e ∈ t.typeNames, e.2.index < t.types.size
  constantNames : ∀ e ∈ t.constantNames, e.2.index < t.constants.size
  fresh : (t.typeNames.map Prod.fst ++ t.constantNames.map Prod.fst ++ predeclared.map Prod.fst).Nodup

lemma Table.WellFormed.empty : Table.empty.WellFormed := by
  refine ⟨by simp [Table.empty, Arena.empty, Arena.get?], by simp [Table.empty, Arena.empty, Arena.get?],
    by simp [Table.empty], by simp [Table.empty], ?_⟩
  simp [Table.empty, predeclared]

section Entries

variable {t : Table}

lemma Table.WellFormed.appendType (hw : t.WellFormed) {type : GpuType}
    (hf : type.shape.Formed t.types.size t.constants.size) :
    { t with types := t.types.append type }.WellFormed := by
  refine ⟨fun i type' h => ?_, hw.constants, fun e he => ?_, hw.constantNames, hw.fresh⟩
  · rcases Arena.get?_append_cases h with h | ⟨he, rfl⟩
    · exact hw.shapes i type' h
    · cases he
      exact hf
  · have := hw.typeNames e he
    simp only [Arena.size_append]
    omega

lemma Table.WellFormed.appendConstant (hw : t.WellFormed) {c : Constant} (hc : Constant.Plain c) :
    { t with constants := t.constants.append c }.WellFormed := by
  refine ⟨fun i type h => ?_, fun h v hv => ?_, hw.typeNames, fun e he => ?_, hw.fresh⟩
  · exact (hw.shapes i type h).mono le_rfl (by simp)
  · rcases Arena.get?_append_cases hv with hv | ⟨_, rfl⟩
    · exact hw.constants h v hv
    · exact hc
  · have := hw.constantNames e he
    simp only [Arena.size_append]
    omega

end Entries

def together {α β γ : Type} (g : α → β → γ) : Option α → Option β → Option γ
  | some a, some b => some (g a b)
  | _, _ => none

/-- How a step that may fail ends: the table is still well formed, the result is good for it, and
there is none exactly when an error was reported. -/
structure Answer {α : Type} (good : α → Table → Prop) (s : Progress) (r : Option α) (s' : Progress) :
    Prop where
  wellFormed : s'.table.WellFormed
  adds : Adds s s'
  good : ∀ a, r = some a → good a s'.table
  none_iff : r = none ↔ Erred s s'

section Answer

variable {α β : Type} {P : α → Table → Prop} {Q : β → Table → Prop} {s s' s'' : Progress}

lemma Answer.some (hw : s.table.WellFormed) {a : α} (h : P a s.table) : Answer P s (some a) s := by
  refine ⟨hw, .refl s, ?_, ?_⟩
  · rintro _ ⟨⟩
    exact h
  · simp [not_erred_self]

lemma Answer.trans {a : α} {r : Option β} (h : Answer P s (.some a) s') (h' : Answer Q s' r s'') :
    Answer Q s r s'' := by
  refine ⟨h'.wellFormed, h.adds.trans h'.adds, h'.good, ?_⟩
  have hn : ¬ Erred s s' := by simp [← h.none_iff]
  rw [h'.none_iff, h.adds.erred_iff h'.adds]
  simp [hn]

lemma Answer.none (h : Answer P s .none s') : Answer Q s .none s' :=
  ⟨h.wellFormed, h.adds, by simp, by simp [← h.none_iff]⟩

lemma Ends.fail_answer (hw : s.table.WellFormed) {p : Problem} (hp : p.isError = true) (r : Region) :
    Ends (Build.fail p r) s (Answer P s) := by
  apply Ends.fail
  refine ⟨hw, adds_findings s _, by simp, ?_⟩
  simp [erred_findings_iff, hp]

lemma Answer.then_fail {γ : Type} {R : γ → Table → Prop} {r : Option α} (h : Answer P s r s')
    {p : Problem} (hp : p.isError = true) (reg : Region) :
    Ends (Build.fail p reg) s' (Answer R s) := by
  apply Ends.fail
  have ha := adds_findings s' [⟨p, reg⟩]
  refine ⟨h.wellFormed, h.adds.trans ha, by simp, ?_⟩
  rw [h.adds.erred_iff ha, erred_findings_iff]
  simp [hp]

lemma Answer.then_none {γ : Type} {R : γ → Table → Prop} {r : Option α} (h : Answer P s r s')
    (h' : Answer Q s' .none s'') : Answer R s .none s'' := by
  refine ⟨h'.wellFormed, h.adds.trans h'.adds, by simp, ?_⟩
  rw [h.adds.erred_iff h'.adds, ← h'.none_iff]
  simp

lemma Ends.bind_answer {m : Build (Option α)} {f : Option α → Build (Option β)}
    (hm : Ends m s (Answer P s)) (hn : f .none = Pure.pure .none)
    (hf : ∀ a s', s'.table.WellFormed → Adds s s' → P a s'.table → Ends (f (.some a)) s' (Answer Q s')) :
    Ends (m >>= f) s (Answer Q s) := by
  refine hm.bind fun r s' h => ?_
  cases r with
  | none =>
    rw [hn]
    exact Ends.pure h.none
  | some a => exact (hf a s' h.wellFormed h.adds (h.good a rfl)).mono fun r s'' h' => h.trans h'

lemma Answer.both {γ : Type} {R : γ → Table → Prop} {g : α → β → γ} {r : Option α} {r' : Option β}
    (h : Answer P s r s') (h' : Answer Q s' r' s'')
    (hg : ∀ a b, P a s'.table → Q b s''.table → R (g a b) s''.table) :
    Answer R s (together g r r') s'' := by
  have he := h.adds.erred_iff h'.adds
  rw [← h.none_iff, ← h'.none_iff] at he
  refine ⟨h'.wellFormed, h.adds.trans h'.adds, fun c hc => ?_, ?_⟩
  · cases r <;> cases r' <;> cases hc
    exact hg _ _ (h.good _ rfl) (h'.good _ rfl)
  · cases r <;> cases r' <;> simp [he, together]

end Answer

end Description

end ShaderLayout
