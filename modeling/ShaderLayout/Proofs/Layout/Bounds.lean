import ShaderLayout.Proofs.Layout.Filling
import ShaderLayout.Proofs.Layout.Rounding

namespace ShaderLayout

def StructMember.NonNegative (m : StructMember) : Prop :=
  (∀ a ∈ m.align, 0 ≤ a) ∧ ∀ s ∈ m.size, 0 ≤ s

def Shape.NonNegative : Shape → Prop
  | .scalar s => 0 ≤ s.width
  | .vector _ c => 0 ≤ c.width
  | .matrix _ _ width => 0 ≤ width
  | .array _ _ stride => ∀ s ∈ stride, 0 ≤ s
  | .struct members => ∀ m ∈ members, m.NonNegative
  | _ => True

lemma StructMember.NonNegative.align_getD {m : StructMember} (hm : m.NonNegative) {d : Int} (hd : 0 ≤ d) :
    0 ≤ m.align.getD d := by
  cases h : m.align with
  | none => exact hd
  | some a => exact hm.1 a h

lemma StructMember.NonNegative.size_getD {m : StructMember} (hm : m.NonNegative) {d : Int} (hd : 0 ≤ d) :
    0 ≤ m.size.getD d := by
  cases h : m.size with
  | none => exact hd
  | some s => exact hm.2 s h

namespace Layout

def Sized (l : Layout) : Prop := 0 ≤ l.size ∧ 0 < l.alignment

variable {t : Layouts} {constants : Arena Constant} {types : Arena GpuType}

lemma Extent.le {ms : List StructMember} {total alignment total' alignment' : Int}
    (h : Extent t total alignment ms total' alignment') (ht : ∀ l ∈ t, Sized l)
    (hm : ∀ m ∈ ms, m.NonNegative) (ho : 0 ≤ total) : total ≤ total' ∧ alignment ≤ alignment' := by
  induction h with
  | nil => exact ⟨le_rfl, le_rfl⟩
  | @cons total alignment total' alignment' m rest l hl _ ih =>
    obtain ⟨hm, hr⟩ := List.forall_mem_cons.1 hm
    obtain ⟨hs, ha⟩ := ht l (Array.mem_of_getElem? hl)
    have h1 := le_roundUp (hm.align_getD ha.le) ho
    have h2 := hm.size_getD hs
    obtain ⟨h3, h4⟩ := ih hr (by omega)
    exact ⟨by omega, (le_max_left _ _).trans h4⟩

lemma Extent.placements {ms : List StructMember} {total alignment total' alignment' : Int}
    (h : Extent t total alignment ms total' alignment') (ht : ∀ l ∈ t, Sized l)
    (hm : ∀ m ∈ ms, m.NonNegative) (ho : 0 ≤ total) (index : Nat) :
    ∃ ps, placeAll t index total ms = .ok ps ∧ List.Forall₂ (fun p m => p.name = m.name) ps ms ∧
      ∀ p ∈ ps, total ≤ p.start ∧ p.start ≤ p.stop ∧ p.stop ≤ total' := by
  induction h generalizing index with
  | nil => exact ⟨[], rfl, .nil, by simp⟩
  | @cons total alignment total' alignment' m rest l hl he ih =>
    obtain ⟨hm, hr⟩ := List.forall_mem_cons.1 hm
    obtain ⟨hs, ha⟩ := ht l (Array.mem_of_getElem? hl)
    have h1 := le_roundUp (hm.align_getD ha.le) ho
    have h2 := hm.size_getD hs
    have h3 := (he.le ht hr (by omega)).1
    obtain ⟨ps, hps, hnames, hb⟩ := ih hr (by omega) (index + 1)
    let start := roundUp (m.align.getD l.alignment) total
    refine ⟨⟨index, m.name, start, start + m.size.getD l.size, m.align.getD l.alignment⟩ :: ps, ?_,
      .cons rfl hnames, List.forall_mem_cons.2 ⟨?_, fun p hp => ?_⟩⟩
    · rw [placeAll, place_of_some hl]
      change (placeAll t _ _ rest >>= fun ps => pure (_ :: ps)) = _
      rw [hps]
      rfl
    · exact ⟨h1, by simp only; omega, h3⟩
    · obtain ⟨h4, h5, h6⟩ := hb p hp
      exact ⟨by omega, h5, h6⟩

lemma Count.nonneg {length : ArrayLength} {n : Int} (h : Count constants length n) : 0 ≤ n := by
  cases h with
  | dynamic => exact le_rfl
  | constant => exact Int.emod_nonneg _ (by norm_num)

lemma Lays.nonneg {s : Shape} {l : Layout} (h : Lays t constants s l) (ht : ∀ l ∈ t, Sized l)
    (hs : s.NonNegative) : 0 ≤ l.size ∧ 0 ≤ l.alignment := by
  cases h with
  | scalar s => exact ⟨hs, hs⟩
  | vector n c =>
    have hw : 0 ≤ c.width := hs
    exact ⟨by positivity, by split <;> positivity⟩
  | matrix columns rows width =>
    have hw : 0 ≤ width := hs
    exact ⟨by positivity, by split <;> positivity⟩
  | array hn hst =>
    have := hn.nonneg
    cases hst with
    | given => exact ⟨mul_nonneg this (hs _ rfl), hs _ rfl⟩
    | natural hl =>
      obtain ⟨h1, h2⟩ := ht _ (Array.mem_of_getElem? hl)
      have := h1.trans (le_roundUp h2.le h1)
      exact ⟨by positivity, this⟩
  | struct he =>
    obtain ⟨h1, h2⟩ := he.le ht hs le_rfl
    have ha : (0 : Int) ≤ _ := zero_le_one.trans h2
    exact ⟨h1.trans (le_roundUp ha h1), ha⟩
  | _ => exact ⟨by decide, by decide⟩

lemma Prefix.sized {k : Nat} (hp : Prefix types constants k t)
    (hn : ∀ i type, types.get? ⟨i⟩ = some type → type.shape.NonNegative) : ∀ l ∈ t, Sized l := by
  induction k generalizing t with
  | zero =>
    have := Array.size_eq_zero_iff.1 hp.size_eq
    simp [this]
  | succ k ih =>
    obtain ⟨type, l, hk, ht, hp', ha⟩ := hp.pop
    have hs := ih hp'
    intro l' hl'
    rw [ht, Array.mem_push] at hl'
    rcases hl' with hl' | rfl
    · exact hs l' hl'
    · obtain ⟨h1, h2⟩ := ha.lays.nonneg hs (hn k type hk)
      exact ⟨h1, lt_of_le_of_ne h2 ha.alignment_ne.symm⟩

end Layout

end ShaderLayout
