import ShaderLayout.Proofs.Description.Tables

namespace ShaderLayout.Description

open Layout

/-- A type with a stride or an alignment of more than 32 bits, of its own or by a member. -/
inductive Overaligned (types : Arena GpuType) : Handle → Prop
  | stride {h base : Handle} {type : GpuType} {length : ArrayLength} {s : Int} (ht : types.get? h = some type)
      (hs : type.shape = .array base length (some s)) (hw : 2 ^ 32 ≤ s) : Overaligned types h
  | align {h : Handle} {type : GpuType} {members : List StructMember} {m : StructMember} {a : Int}
      (ht : types.get? h = some type) (hs : type.shape = .struct members) (hm : m ∈ members)
      (ha : m.align = some a) (hw : 2 ^ 32 ≤ a) : Overaligned types h
  | member {h : Handle} {type : GpuType} {members : List StructMember} {m : StructMember}
      (ht : types.get? h = some type) (hs : type.shape = .struct members) (hm : m ∈ members)
      (ha : m.align = none) (hw : Overaligned types m.type) : Overaligned types h

section Rules

variable {t : Layouts} {constants : Arena Constant} {types : Arena GpuType}

lemma Extent.lt_alignment_iff {ms : List StructMember} {total alignment total' alignment' b : Int}
    (h : Extent t total alignment ms total' alignment') : b < alignment' ↔
      b < alignment ∨ ∃ m ∈ ms, ∃ l, t[m.type.index]? = some l ∧ b < m.align.getD l.alignment := by
  induction h with
  | nil => simp
  | cons hl _ ih =>
    rw [ih, lt_max_iff, or_assoc]
    simp [hl]

lemma Shape.Formed.alignment_le {i n : Nat} {s : Shape} (h : s.Formed i n) {l : Layout} (hl : Lays t constants s l) :
    l.alignment ≤ 32 ∨ (∃ base length stride, s = .array base length stride) ∨ ∃ members, s = .struct members := by
  cases hl with
  | scalar s =>
    have hw := h.1
    simp only [List.mem_cons, List.not_mem_nil, or_false] at hw
    simp only
    omega
  | vector n c =>
    have hw := h.1
    simp only [List.mem_cons, List.not_mem_nil, or_false] at hw
    simp only
    split <;> omega
  | matrix columns rows width =>
    simp only [Shape.Formed, List.mem_cons, List.not_mem_nil, or_false] at h
    simp only
    split <;> omega
  | @array base length stride => exact .inr (.inl ⟨base, length, stride, rfl⟩)
  | @struct members => exact .inr (.inr ⟨members, rfl⟩)
  | _ => exact .inl (by decide)

lemma Lays.roundUp_eq_size {i n : Nat} {s : Shape} {l : Layout} (h : Lays t constants s l) (hf : s.Formed i n)
    (ht : ∀ l ∈ t, Sized l) (hsize : l.size < 2 ^ 32) (ha : 2 ^ 32 ≤ l.alignment) :
    roundUp l.alignment l.size = l.size := by
  have hn := Shape.Formed.nonNegative hf
  obtain ⟨h1, h2⟩ := h.nonneg ht hn
  obtain hle | ⟨base, length, stride, rfl⟩ | ⟨members, rfl⟩ := Shape.Formed.alignment_le hf h
  · omega
  · cases h with
    | @array _ _ _ n s hcount hst =>
      simp only at hsize ha h2 ⊢
      obtain rfl | h0 := eq_or_ne n 0
      · simp
      · have : s ≤ n * s := le_mul_of_one_le_left h2 (by have := hcount.nonneg; omega)
        omega
  · cases h with
    | @struct _ total alignment he =>
      simp only at hsize ha h2 ⊢
      have heq := roundUp_eq_self_of_lt h2 (he.le ht hn le_rfl).1 (by omega)
      rw [heq, heq]

lemma Accepts.natural_le {i n : Nat} {type : GpuType} {l : Layout} (h : Accepts t constants type l)
    (hf : type.shape.Formed i n) (ht : ∀ l ∈ t, Sized l) : roundUp l.alignment l.size ≤ 2 ^ 32 - 1 := by
  obtain ⟨h1, h2⟩ := h.lays.nonneg ht (Shape.Formed.nonNegative hf)
  have hsize := h.size_le
  obtain ha | ha := lt_or_ge l.alignment (2 ^ 32)
  · have := roundUp_lt_two_pow h2 h1 ha (by omega)
    omega
  · rw [Lays.roundUp_eq_size h.lays hf ht (by omega) ha]
    exact hsize

end Rules

section Tables

variable {table : Table} {t : Layouts} (hp : Prefix table.types table.constants table.types.size t)

include hp

lemma struct_alignment (b : Int) (hb : 1 < b) {h : Handle} {type : GpuType} {members : List StructMember}
    (ht : table.types.get? h = some type) (hs : type.shape = .struct members) :
    ∃ l, t[h.index]? = some l ∧ (b ≤ l.alignment ↔
      ∃ m ∈ members, ∃ l, t[m.type.index]? = some l ∧ b ≤ m.align.getD l.alignment) := by
  obtain ⟨l, hl, hlays, -⟩ := hp.accepts_full ht
  rw [hs] at hlays
  cases hlays with
  | struct he =>
    refine ⟨_, hl, ?_⟩
    have hlt := Extent.lt_alignment_iff (b := b - 1) he
    simpa only [Int.sub_one_lt_iff, Int.not_le.2 hb, false_or] using hlt

variable (hw : table.WellFormed)

include hw

lemma Overaligned.two_pow_le {h : Handle} (ho : Overaligned table.types h) :
    ∃ l, t[h.index]? = some l ∧ 2 ^ 32 ≤ l.alignment := by
  induction ho with
  | stride ht hs hwide =>
    obtain ⟨l, hl, hlays, -⟩ := hp.accepts_full ht
    rw [hs] at hlays
    cases hlays with
    | array _ hst =>
      cases hst
      exact ⟨_, hl, hwide⟩
  | @align h type members m a ht hs hm ha hwide =>
    obtain ⟨l, hl, hiff⟩ := struct_alignment hp (2 ^ 32) (by decide) ht hs
    have hf := hw.shapes h.index type ht
    rw [hs] at hf
    have hlt : m.type.index < t.size := hp.size_eq ▸ (hf.1 m hm).1.trans (Arena.index_lt_of_get? ht)
    refine ⟨l, hl, hiff.2 ⟨m, hm, _, Array.getElem?_eq_getElem hlt, ?_⟩⟩
    rw [ha]
    exact hwide
  | @member h type members m ht hs hm ha _ ih =>
    obtain ⟨l, hl, hiff⟩ := struct_alignment hp (2 ^ 32) (by decide) ht hs
    obtain ⟨l', hl', hwide⟩ := ih
    refine ⟨l, hl, hiff.2 ⟨m, hm, l', hl', ?_⟩⟩
    rw [ha]
    exact hwide

lemma wide_cases {b : Int} (hb : 2 ^ 32 ≤ b) {h : Handle} {type : GpuType} (ht : table.types.get? h = some type)
    {l : Layout} (hl : t[h.index]? = some l) (hwide : b ≤ l.alignment) :
    (∃ base length s, type.shape = .array base length (some s) ∧ b ≤ s) ∨
      ∃ members, type.shape = .struct members ∧ ∃ m ∈ members, (∃ a, m.align = some a ∧ b ≤ a) ∨
        m.align = none ∧ m.type.index < h.index ∧ ∃ lm, t[m.type.index]? = some lm ∧ b ≤ lm.alignment := by
  obtain ⟨l', hl', hlays, -⟩ := hp.accepts_full ht
  obtain rfl := Option.some.inj (hl'.symm.trans hl)
  have hf := hw.shapes h.index type ht
  obtain hle | ⟨base, length, stride, hs⟩ | ⟨members, hs⟩ := Shape.Formed.alignment_le hf hlays
  · omega
  · rw [hs] at hlays hf
    cases hlays with
    | array _ hst =>
      cases hst with
      | given => exact .inl ⟨base, length, _, hs, hwide⟩
      | @natural le hle =>
        obtain ⟨btype, hbt⟩ : ∃ btype, table.types.get? base = some btype :=
          ⟨_, Array.getElem?_eq_getElem (hf.1.trans (Arena.index_lt_of_get? ht))⟩
        obtain ⟨lb, hlb, haccepts⟩ := hp.accepts_full hbt
        obtain rfl := Option.some.inj (hlb.symm.trans hle)
        have hsized := hp.sized fun i type hi => Shape.Formed.nonNegative (hw.shapes i type hi)
        have hnatural := Accepts.natural_le haccepts (hw.shapes _ _ hbt) hsized
        simp only at hwide
        omega
  · obtain ⟨l', hl', hiff⟩ := struct_alignment hp b (by omega) ht hs
    obtain rfl := Option.some.inj (hl'.symm.trans hl)
    obtain ⟨m, hm, lm, hlm, hwm⟩ := hiff.1 hwide
    refine .inr ⟨members, hs, m, hm, ?_⟩
    rw [hs] at hf
    cases ha : m.align with
    | some a =>
      rw [ha] at hwm
      exact .inl ⟨a, rfl, hwm⟩
    | none =>
      rw [ha] at hwm
      exact .inr ⟨rfl, (hf.1 m hm).1, lm, hlm, hwm⟩

lemma overaligned_of_two_pow_le {h : Handle} {l : Layout} (hl : t[h.index]? = some l) (hwide : 2 ^ 32 ≤ l.alignment) :
    Overaligned table.types h := by
  induction hi : h.index using Nat.strong_induction_on generalizing h l with
  | _ i ih =>
    subst hi
    have hlt : h.index < table.types.items.size := (Array.getElem?_eq_some_iff.1 hl).1.trans_eq hp.size_eq
    have ht : table.types.get? h = some table.types.items[h.index] := Array.getElem?_eq_getElem hlt
    obtain ⟨base, length, s, hs, hws⟩ | ⟨members, hs, m, hm, ⟨a, ha, hwa⟩ | ⟨ha, hbefore, lm, hlm, hwm⟩⟩ :=
      wide_cases hp hw le_rfl ht hl hwide
    · exact .stride ht hs hws
    · exact .align ht hs hm ha hwa
    · exact .member ht hs hm ha (ih m.type.index hbefore hlm hwm rfl)

lemma overaligned_iff {h : Handle} {l : Layout} (hl : t[h.index]? = some l) :
    Overaligned table.types h ↔ 2 ^ 32 - 1 < l.alignment := by
  rw [Int.sub_one_lt_iff]
  constructor
  · intro ho
    obtain ⟨l', hl', hwide⟩ := ho.two_pow_le hp hw
    exact Option.some.inj (hl'.symm.trans hl) ▸ hwide
  · exact overaligned_of_two_pow_le hp hw hl

end Tables

/-- Of an accepted description every size is in range, and so is every alignment but those of overaligned types;
a size out of range, or no alignment, is an error. -/
theorem layouts_in_range {source : String} {table : Table} (hr : (read source).accepted? = some table) :
    (∀ t, Layout.table table.types table.constants = .ok t → ∀ h type, table.types.get? h = some type →
      ∃ l, t.resolve h = .ok l ∧ (0 ≤ l.size ∧ l.size ≤ 2 ^ 32 - 1) ∧ 1 ≤ l.alignment ∧
        (2 ^ 32 - 1 < l.alignment ↔ Overaligned table.types h)) ∧
    ∀ k t type l, Prefix table.types table.constants k t → table.types.get? ⟨k⟩ = some type →
      Lays t table.constants type.shape l →
      (0 ≤ l.size ∧ 0 ≤ l.alignment) ∧
      (l.alignment = 0 →
        Layout.table table.types table.constants = .error (surfaced (.zeroAlignment ⟨k⟩ type.shape.tag))) ∧
      (l.alignment ≠ 0 → 2 ^ 32 - 1 < l.size →
        Layout.table table.types table.constants = .error (surfaced (.sizeOverflow ⟨k⟩ type.shape.tag l.size))) := by
  obtain ⟨is, -, rfl, -⟩ := read_accepted hr
  have hw := build_wellFormed is
  have hnn : ∀ i type, (build is).table.types.get? ⟨i⟩ = some type → type.shape.NonNegative :=
    fun i type hi => Shape.Formed.nonNegative (hw.shapes i type hi)
  refine ⟨fun t ht h type htype => ?_, fun k t type l hp hk hl => ?_⟩
  · have hp := table_prefix ht
    obtain ⟨l, hl, ha⟩ := hp.accepts_full htype
    obtain ⟨h1, h2⟩ := hp.sized hnn l (Array.mem_of_getElem? hl)
    exact ⟨l, resolve_eq_ok_iff.2 hl, ⟨h1, ha.size_le⟩, h2, (overaligned_iff hp hw hl).symm⟩
  · have refused : ∀ {e : LayoutError}, Refuses t (build is).table.constants ⟨k⟩ type e →
        Layout.table (build is).table.types (build is).table.constants = .error (surfaced e) := by
      intro e he
      have hf : FailsAt (build is).table.types (build is).table.constants k t e := ⟨hp, type, hk, he⟩
      exact hf.table
    exact ⟨hl.nonneg (hp.sized hnn) (hnn k type hk), fun ha => refused (.zeroAlignment hl ha),
      fun ha hs => refused (.sizeOverflow hl ha hs)⟩

theorem layouts_in_range_struct : ∃ table t,
    (read "type A = @stride(16) array<f32, 3>; type S = struct { a: A, b: u32 };").accepted? = some table ∧
      Layout.table table.types table.constants = .ok t ∧
      ∀ h type, table.types.get? h = some type → ∃ l, t.resolve h = .ok l ∧ l.size ≤ 2 ^ 32 - 1 ∧ 1 ≤ l.alignment := by
  have hlaid : ((read "type A = @stride(16) array<f32, 3>; type S = struct { a: A, b: u32 };").accepted?.any
      fun table => (Layout.table table.types table.constants).toOption.isSome) = true := by decide +kernel
  obtain ⟨table, hr, hsome⟩ := (Option.any_eq_true _ _).1 hlaid
  cases ht : Layout.table table.types table.constants with
  | error f =>
    rw [ht] at hsome
    cases hsome
  | ok t =>
    refine ⟨table, t, hr, ht, fun h type htype => ?_⟩
    obtain ⟨l, hl, hsize, ha, -⟩ := (layouts_in_range hr).1 t ht h type htype
    exact ⟨l, hl, hsize.2, ha⟩

theorem overaligned_array_laid_out : ∃ table t,
    (read "type A = @stride(4294967296) array<u32>;").accepted? = some table ∧
      Layout.table table.types table.constants = .ok t ∧ t.resolve ⟨1⟩ = .ok ⟨0, 4294967296⟩ := by
  have hlaid : ((read "type A = @stride(4294967296) array<u32>;").accepted?.any fun table =>
      (Layout.table table.types table.constants).toOption.any fun t => t[1]? == some ⟨0, 4294967296⟩) = true := by
    decide +kernel
  obtain ⟨table, hr, hany⟩ := (Option.any_eq_true _ _).1 hlaid
  cases ht : Layout.table table.types table.constants with
  | error f =>
    rw [ht] at hany
    cases hany
  | ok t =>
    rw [ht] at hany
    exact ⟨table, t, hr, ht, resolve_eq_ok_iff.2 (eq_of_beq hany)⟩

end ShaderLayout.Description
