import ShaderLayout.Layout.Table
import ShaderLayout.Proofs.Arena

/-!
The layout rules as relations. `Lays` says which layout a shape has over a table of earlier layouts,
`Raises` says why it has none; `Accepts` and `Refuses` add the checks that a type must pass. The
functions decide between them: `ofType_eq_ok_iff`, `ofType_eq_error_iff`.
-/

namespace ShaderLayout.Layout

inductive Integer : ConstantValue → Int → Prop
  | sint (width n : Int) : Integer (.scalar width (.sint n)) n
  | uint (width n : Int) : Integer (.scalar width (.uint n)) n

inductive Count (constants : Arena Constant) : ArrayLength → Int → Prop
  | dynamic : Count constants .dynamic 0
  | constant {c : Handle} {v : Constant} {n : Int} (hv : constants.get? c = some v)
      (hn : Integer v.value n) : Count constants (.constant c) (n % 2 ^ 32)

inductive Stride (t : Layouts) (base : Handle) : Option Int → Int → Prop
  | given (s : Int) : Stride t base (some s) s
  | natural {l : Layout} (hl : t[base.index]? = some l) :
      Stride t base none (roundUp l.alignment l.size)

inductive Extent (t : Layouts) : Int → Int → List StructMember → Int → Int → Prop
  | nil (total alignment : Int) : Extent t total alignment [] total alignment
  | cons {total alignment total' alignment' : Int} {m : StructMember} {rest : List StructMember}
      {l : Layout} (hl : t[m.type.index]? = some l)
      (hr : Extent t (roundUp (m.align.getD l.alignment) total + m.size.getD l.size)
        (max alignment (m.align.getD l.alignment)) rest total' alignment') :
      Extent t total alignment (m :: rest) total' alignment'

inductive Lays (t : Layouts) (constants : Arena Constant) : Shape → Layout → Prop
  | scalar (s : Scalar) : Lays t constants (.scalar s) ⟨s.width, s.width⟩
  | vector (n : VectorSize) (c : Scalar) :
      Lays t constants (.vector n c) ⟨n.toNat * c.width, (if 3 ≤ n.toNat then 4 else 2) * c.width⟩
  | matrix (columns rows : VectorSize) (width : Int) :
      Lays t constants (.matrix columns rows width)
        ⟨columns.toNat * rows.toNat * width, (if 3 ≤ rows.toNat then 4 else 2) * width⟩
  | pointer (base : Handle) : Lays t constants (.pointer base) ⟨4, 1⟩
  | valuePointer (n : Option VectorSize) (s : Scalar) : Lays t constants (.valuePointer n s) ⟨4, 1⟩
  | array {base : Handle} {length : ArrayLength} {stride : Option Int} {n s : Int}
      (hn : Count constants length n) (hs : Stride t base stride s) :
      Lays t constants (.array base length stride) ⟨n * s, s⟩
  | struct {members : List StructMember} {total alignment : Int}
      (he : Extent t 0 1 members total alignment) :
      Lays t constants (.struct members) ⟨roundUp alignment total, alignment⟩
  | image (dimension : ImageDimension) (arrayed : Bool) :
      Lays t constants (.image dimension arrayed) ⟨0, 1⟩
  | sampler (comparison : Bool) : Lays t constants (.sampler comparison) ⟨0, 1⟩

/-- Why the shape at a handle has no layout. Of an array the length comes before the element, of a
struct the first member that is not laid out counts. -/
inductive Raises (t : Layouts) (constants : Arena Constant) (h : Handle) : Shape → LayoutError → Prop
  | lengthMissing {base c : Handle} {stride : Option Int} (hc : constants.get? c = none) :
      Raises t constants h (.array base (.constant c) stride) (.notInArena c constants.size)
  | lengthNotInteger {base c : Handle} {stride : Option Int} {v : Constant}
      (hv : constants.get? c = some v) (hn : ∀ n, ¬ Integer v.value n) :
      Raises t constants h (.array base (.constant c) stride) (.lengthNotInteger h c v.value)
  | elementMissing {base : Handle} {length : ArrayLength} {n : Int} (hn : Count constants length n)
      (hb : t.size ≤ base.index) :
      Raises t constants h (.array base length none) (.notLaidOut base t.size)
  | memberMissing {before after : List StructMember} {m : StructMember}
      (hb : ∀ b ∈ before, b.type.index < t.size) (hm : t.size ≤ m.type.index) :
      Raises t constants h (.struct (before ++ m :: after)) (.notLaidOut m.type t.size)

structure Accepts (t : Layouts) (constants : Arena Constant) (type : GpuType) (l : Layout) : Prop where
  lays : Lays t constants type.shape l
  alignment_ne : l.alignment ≠ 0
  size_le : l.size ≤ 2 ^ 32 - 1

inductive Refuses (t : Layouts) (constants : Arena Constant) (h : Handle) (type : GpuType) :
    LayoutError → Prop
  | raised {e : LayoutError} (he : Raises t constants h type.shape e) : Refuses t constants h type e
  | zeroAlignment {l : Layout} (hl : Lays t constants type.shape l) (ha : l.alignment = 0) :
      Refuses t constants h type (.zeroAlignment h type.shape.tag)
  | sizeOverflow {l : Layout} (hl : Lays t constants type.shape l) (ha : l.alignment ≠ 0)
      (hs : 2 ^ 32 - 1 < l.size) :
      Refuses t constants h type (.sizeOverflow h type.shape.tag l.size)

def Keeps (t t' : Layouts) : Prop := ∀ (i : Nat) (l : Layout), t[i]? = some l → t'[i]? = some l

lemma Keeps.refl (t : Layouts) : Keeps t t := fun _ _ h => h

lemma Keeps.trans {t t' t'' : Layouts} (h : Keeps t t') (h' : Keeps t' t'') : Keeps t t'' :=
  fun i l hl => h' i l (h i l hl)

lemma Keeps.take (t : Layouts) (k : Nat) : Keeps (t.take k) t := by
  intro i l h
  rw [Array.take_eq_extract, Array.getElem?_extract] at h
  split at h
  · simpa using h
  · cases h

lemma Keeps.push (t : Layouts) (l : Layout) : Keeps t (t.push l) := by
  intro i l' h
  obtain ⟨hlt, _⟩ := Array.getElem?_eq_some_iff.1 h
  rw [Array.getElem?_push, if_neg (Nat.ne_of_lt hlt), h]

lemma Keeps.of_isPrefix {t t' : Layouts} (h : t.toList <+: t'.toList) : Keeps t t' := by
  intro i l hl
  rw [← Array.getElem?_toList] at hl ⊢
  obtain ⟨hi, rfl⟩ := List.getElem?_eq_some_iff.1 hl
  exact List.prefix_iff_getElem?.1 h i hi

lemma Extent.member_lt {t : Layouts} {ms : List StructMember} {total alignment total' alignment' : Int}
    (h : Extent t total alignment ms total' alignment') : ∀ m ∈ ms, m.type.index < t.size := by
  induction h with
  | nil => simp
  | cons hl _ ih =>
    refine List.forall_mem_cons.2 ⟨?_, ih⟩
    exact (Array.getElem?_eq_some_iff.1 hl).1

section Monotone

variable {t t' : Layouts} {constants constants' : Arena Constant}

lemma Count.mono (hc : ∀ h v, constants.get? h = some v → constants'.get? h = some v)
    {length : ArrayLength} {n : Int} (h : Count constants length n) : Count constants' length n := by
  cases h with
  | dynamic => exact .dynamic
  | constant hv hn => exact .constant (hc _ _ hv) hn

lemma Stride.mono (ht : Keeps t t') {base : Handle} {stride : Option Int} {s : Int}
    (h : Stride t base stride s) : Stride t' base stride s := by
  cases h with
  | given => exact .given s
  | natural hl => exact .natural (ht _ _ hl)

lemma Extent.mono (ht : Keeps t t') {ms : List StructMember} {total alignment total' alignment' : Int}
    (h : Extent t total alignment ms total' alignment') : Extent t' total alignment ms total' alignment' := by
  induction h with
  | nil => exact .nil ..
  | cons hl _ ih => exact .cons (ht _ _ hl) ih

lemma Lays.mono (ht : Keeps t t') (hc : ∀ h v, constants.get? h = some v → constants'.get? h = some v)
    {s : Shape} {l : Layout} (h : Lays t constants s l) : Lays t' constants' s l := by
  cases h with
  | scalar s => exact .scalar s
  | vector n c => exact .vector n c
  | matrix columns rows width => exact .matrix columns rows width
  | pointer base => exact .pointer base
  | valuePointer n s => exact .valuePointer n s
  | array hn hs => exact .array (hn.mono hc) (hs.mono ht)
  | struct he => exact .struct (he.mono ht)
  | image dimension arrayed => exact .image dimension arrayed
  | sampler comparison => exact .sampler comparison

lemma Accepts.mono (ht : Keeps t t')
    (hc : ∀ h v, constants.get? h = some v → constants'.get? h = some v) {type : GpuType} {l : Layout}
    (h : Accepts t constants type l) : Accepts t' constants' type l :=
  ⟨h.lays.mono ht hc, h.alignment_ne, h.size_le⟩

end Monotone

lemma integer?_eq_some_iff {v : ConstantValue} {n : Int} : v.integer? = some n ↔ Integer v n := by
  constructor
  · intro h
    cases v with
    | scalar width value =>
      cases value <;> simp only [ConstantValue.integer?, Option.some.injEq, reduceCtorEq] at h
      · exact h ▸ .sint ..
      · exact h ▸ .uint ..
    | composite type components => cases h
  · rintro (⟨_, _⟩ | ⟨_, _⟩) <;> rfl

lemma resolve_eq_ok_iff {t : Layouts} {h : Handle} {l : Layout} :
    t.resolve h = .ok l ↔ t[h.index]? = some l := by
  rw [Layouts.resolve]
  cases t[h.index]? <;> simp

lemma resolve_eq_error_iff {t : Layouts} {h : Handle} {e : LayoutError} :
    t.resolve h = .error e ↔ t.size ≤ h.index ∧ e = .notLaidOut h t.size := by
  rw [Layouts.resolve]
  cases ht : t[h.index]? with
  | none => simpa [Array.getElem?_eq_none_iff.1 ht] using eq_comm
  | some l =>
    obtain ⟨hh, _⟩ := Array.getElem?_eq_some_iff.1 ht
    simp [hh]

section Count

variable {constants : Arena Constant} {h : Handle} {length : ArrayLength}

lemma arrayCount_eq_ok_iff {n : Int} :
    arrayCount constants h length = .ok n ↔ Count constants length n := by
  constructor
  · intro he
    cases length with
    | dynamic =>
      simp only [arrayCount, Except.ok.injEq] at he
      exact he ▸ .dynamic
    | constant c =>
      simp only [arrayCount] at he
      split at he
      · cases he
      · next v hv =>
        split at he
        · next m hm =>
          cases he
          exact .constant hv (integer?_eq_some_iff.1 hm)
        · cases he
  · rintro (_ | ⟨hv, hn⟩)
    · rfl
    · simp [arrayCount, hv, integer?_eq_some_iff.2 hn, wordLimit]

lemma arrayCount_error {e : LayoutError} (he : arrayCount constants h length = .error e) :
    ∃ c, length = .constant c ∧ ((constants.get? c = none ∧ e = .notInArena c constants.size) ∨
      ∃ v, constants.get? c = some v ∧ (∀ n, ¬ Integer v.value n) ∧ e = .lengthNotInteger h c v.value) := by
  cases length with
  | dynamic => cases he
  | constant c =>
    refine ⟨c, rfl, ?_⟩
    simp only [arrayCount] at he
    split at he
    · next hc =>
      cases he
      exact .inl ⟨hc, rfl⟩
    · next v hv =>
      split at he
      · cases he
      · next hm =>
        cases he
        refine .inr ⟨v, hv, fun n hn => ?_, rfl⟩
        rw [integer?_eq_some_iff.2 hn] at hm
        cases hm

end Count

section Members

variable {t : Layouts}

lemma place_of_some {m : StructMember} {l : Layout} (hl : t[m.type.index]? = some l)
    (index : Nat) (offset : Int) :
    place t index offset m = .ok ⟨index, m.name, roundUp (m.align.getD l.alignment) offset,
      roundUp (m.align.getD l.alignment) offset + m.size.getD l.size, m.align.getD l.alignment⟩ := by
  simp only [place, resolve_eq_ok_iff.2 hl]
  rfl

lemma place_of_none {m : StructMember} (hm : t.size ≤ m.type.index) (index : Nat) (offset : Int) :
    place t index offset m = .error (.notLaidOut m.type t.size) := by
  simp only [place, resolve_eq_error_iff.2 ⟨hm, rfl⟩]
  rfl

lemma placeAll_cons {m : StructMember} {rest : List StructMember} {index : Nat} {offset : Int}
    {ps : List Placement} (h : placeAll t index offset (m :: rest) = .ok ps) :
    ∃ l p ps', t[m.type.index]? = some l ∧ place t index offset m = .ok p ∧
      placeAll t (index + 1) p.stop rest = .ok ps' ∧ ps = p :: ps' := by
  cases hl : t[m.type.index]? with
  | none =>
    rw [placeAll, place_of_none (Array.getElem?_eq_none_iff.1 hl)] at h
    cases h
  | some l =>
    rw [placeAll, place_of_some hl] at h
    change (placeAll t _ _ rest >>= fun r => pure (_ :: r)) = _ at h
    cases hr : placeAll t (index + 1)
        (roundUp (m.align.getD l.alignment) offset + m.size.getD l.size) rest with
    | error e => rw [hr] at h; cases h
    | ok ps' =>
      rw [hr] at h
      cases h
      exact ⟨l, _, ps', rfl, place_of_some hl index offset, hr, rfl⟩

lemma resolve_mono {t' : Layouts} (hk : Keeps t t') {h : Handle} {l : Layout} (hl : t.resolve h = .ok l) :
    t'.resolve h = .ok l :=
  resolve_eq_ok_iff.2 (hk _ _ (resolve_eq_ok_iff.1 hl))

lemma placeAll_mono {t' : Layouts} (hk : Keeps t t') {ms : List StructMember} {index : Nat} {offset : Int}
    {ps : List Placement} (h : placeAll t index offset ms = .ok ps) : placeAll t' index offset ms = .ok ps := by
  induction ms generalizing index offset ps with
  | nil => exact h
  | cons m rest ih =>
    obtain ⟨l, p, ps, hl, hp, hrest, rfl⟩ := placeAll_cons h
    have hp' : place t' index offset m = .ok p := by
      rw [place_of_some (hk _ _ hl), ← place_of_some hl, hp]
    rw [placeAll, hp']
    change (placeAll t' _ _ rest >>= fun ps => pure (p :: ps)) = _
    rw [ih hrest]
    rfl

lemma structExtent_eq_ok_iff {ms : List StructMember} {total alignment total' alignment' : Int} :
    structExtent t total alignment ms = .ok (total', alignment') ↔
      Extent t total alignment ms total' alignment' := by
  constructor
  · intro h
    induction ms generalizing total alignment with
    | nil =>
      simp only [structExtent, Except.ok.injEq, Prod.mk.injEq] at h
      obtain ⟨rfl, rfl⟩ := h
      exact .nil ..
    | cons m rest ih =>
      cases hl : t[m.type.index]? with
      | none =>
        rw [structExtent, place_of_none (Array.getElem?_eq_none_iff.1 hl)] at h
        cases h
      | some l =>
        rw [structExtent, place_of_some hl] at h
        exact .cons hl (ih h)
  · intro h
    induction h with
    | nil => rfl
    | cons hl _ ih =>
      rw [structExtent, place_of_some hl]
      exact ih

lemma structExtent_error {ms : List StructMember} {total alignment : Int} {e : LayoutError}
    (h : structExtent t total alignment ms = .error e) :
    ∃ before m after, ms = before ++ m :: after ∧ (∀ b ∈ before, b.type.index < t.size) ∧
      t.size ≤ m.type.index ∧ e = .notLaidOut m.type t.size := by
  induction ms generalizing total alignment with
  | nil => cases h
  | cons m rest ih =>
    cases hl : t[m.type.index]? with
    | none =>
      have hm := Array.getElem?_eq_none_iff.1 hl
      rw [structExtent, place_of_none hm] at h
      cases h
      exact ⟨[], m, rest, rfl, by simp, hm, rfl⟩
    | some l =>
      rw [structExtent, place_of_some hl] at h
      obtain ⟨before, m', after, rfl, hb, hm, rfl⟩ := ih h
      refine ⟨m :: before, m', after, rfl, ?_, hm, rfl⟩
      obtain ⟨hlt, _⟩ := Array.getElem?_eq_some_iff.1 hl
      simpa [hlt] using hb

lemma structExtent_of_missing {before after : List StructMember} {m : StructMember}
    (hb : ∀ b ∈ before, b.type.index < t.size) (hm : t.size ≤ m.type.index) (total alignment : Int) :
    structExtent t total alignment (before ++ m :: after) = .error (.notLaidOut m.type t.size) := by
  induction before generalizing total alignment with
  | nil =>
    rw [List.nil_append, structExtent, place_of_none hm]
    rfl
  | cons b rest ih =>
    obtain ⟨hlt, hr⟩ := List.forall_mem_cons.1 hb
    rw [List.cons_append, structExtent, place_of_some (Array.getElem?_eq_getElem hlt)]
    exact ih hr _ _

end Members

section Shape

variable {t : Layouts} {constants : Arena Constant} {h : Handle}

lemma slots_eq (n : VectorSize) : (n.slots : Int) = if 3 ≤ n.toNat then 4 else 2 := by
  cases n <;> rfl

lemma ofShape_lays {s : Shape} {l : Layout} (hs : ofShape t constants h s = .ok l) :
    Lays t constants s l := by
  cases s with
  | scalar s =>
    cases hs
    exact .scalar s
  | vector n c =>
    cases hs
    rw [slots_eq]
    exact .vector n c
  | matrix columns rows width =>
    cases hs
    rw [slots_eq]
    exact .matrix columns rows width
  | pointer base =>
    cases hs
    exact .pointer base
  | valuePointer n s =>
    cases hs
    exact .valuePointer n s
  | array base length stride =>
    simp only [ofShape] at hs
    cases hn : arrayCount constants h length with
    | error e => rw [hn] at hs; cases hs
    | ok n =>
      rw [hn] at hs
      have hc := arrayCount_eq_ok_iff.1 hn
      cases stride with
      | some s =>
        cases hs
        exact .array hc (.given s)
      | none =>
        cases hb : t.resolve base with
        | error e => simp only [hb] at hs; cases hs
        | ok b =>
          simp only [hb] at hs
          cases hs
          exact .array hc (.natural (resolve_eq_ok_iff.1 hb))
  | struct members =>
    simp only [ofShape] at hs
    cases he : structExtent t 0 1 members with
    | error e => rw [he] at hs; cases hs
    | ok p =>
      rw [he] at hs
      cases hs
      exact .struct (structExtent_eq_ok_iff.1 he)
  | image dimension arrayed =>
    cases hs
    exact .image dimension arrayed
  | sampler comparison =>
    cases hs
    exact .sampler comparison

lemma Lays.ofShape {s : Shape} {l : Layout} (hs : Lays t constants s l) :
    ofShape t constants h s = .ok l := by
  cases hs with
  | scalar s => rfl
  | vector n c => rw [← slots_eq]; rfl
  | matrix columns rows width => rw [← slots_eq]; rfl
  | pointer base => rfl
  | valuePointer n s => rfl
  | array hn hs =>
    simp only [Layout.ofShape, arrayCount_eq_ok_iff.2 hn]
    cases hs with
    | given s => rfl
    | natural hl => simp only [resolve_eq_ok_iff.2 hl]; rfl
  | struct he => simp only [Layout.ofShape, structExtent_eq_ok_iff.2 he]; rfl
  | image dimension arrayed => rfl
  | sampler comparison => rfl

lemma ofShape_eq_ok_iff {s : Shape} {l : Layout} :
    ofShape t constants h s = .ok l ↔ Lays t constants s l :=
  ⟨ofShape_lays, Lays.ofShape⟩

lemma ofShape_raises {s : Shape} {e : LayoutError} (hs : ofShape t constants h s = .error e) :
    Raises t constants h s e := by
  cases s with
  | array base length stride =>
    simp only [ofShape] at hs
    cases hn : arrayCount constants h length with
    | error e' =>
      rw [hn] at hs
      cases hs
      obtain ⟨c, rfl, ⟨hc, rfl⟩ | ⟨v, hv, hi, rfl⟩⟩ := arrayCount_error hn
      · exact .lengthMissing hc
      · exact .lengthNotInteger hv hi
    | ok n =>
      rw [hn] at hs
      cases stride with
      | some s => cases hs
      | none =>
        cases hb : t.resolve base with
        | ok b => simp only [hb] at hs; cases hs
        | error e' =>
          simp only [hb] at hs
          cases hs
          obtain ⟨hi, rfl⟩ := resolve_eq_error_iff.1 hb
          exact .elementMissing (arrayCount_eq_ok_iff.1 hn) hi
  | struct members =>
    simp only [ofShape] at hs
    cases he : structExtent t 0 1 members with
    | ok p => rw [he] at hs; cases hs
    | error e' =>
      rw [he] at hs
      cases hs
      obtain ⟨before, m, after, rfl, hb, hm, rfl⟩ := structExtent_error he
      exact .memberMissing hb hm
  | _ => cases hs

lemma Raises.ofShape {s : Shape} {e : LayoutError} (he : Raises t constants h s e) :
    ofShape t constants h s = .error e := by
  cases he with
  | lengthMissing hc =>
    simp only [Layout.ofShape, arrayCount, hc]
    rfl
  | @lengthNotInteger base c stride v hv hn =>
    have hi : v.value.integer? = none := Option.eq_none_iff_forall_ne_some.2 fun n hm =>
      hn n (integer?_eq_some_iff.1 hm)
    simp only [Layout.ofShape, arrayCount, hv, hi]
    rfl
  | elementMissing hn hb =>
    simp only [Layout.ofShape, arrayCount_eq_ok_iff.2 hn, resolve_eq_error_iff.2 ⟨hb, rfl⟩]
    rfl
  | memberMissing hb hm =>
    simp only [Layout.ofShape, structExtent_of_missing hb hm]
    rfl

lemma ofType_accepts {type : GpuType} {l : Layout} (ht : ofType t constants h type = .ok l) :
    Accepts t constants type l := by
  simp only [ofType] at ht
  cases hs : ofShape t constants h type.shape with
  | error e => rw [hs] at ht; cases ht
  | ok l' =>
    rw [hs] at ht
    change (if _ then _ else _) = _ at ht
    split at ht
    · cases ht
    split at ht
    · cases ht
    · next ha hw =>
      cases ht
      simp only [wordLimit] at hw
      exact ⟨ofShape_eq_ok_iff.1 hs, ha, by omega⟩

lemma ofType_refuses {type : GpuType} {e : LayoutError} (ht : ofType t constants h type = .error e) :
    Refuses t constants h type e := by
  simp only [ofType] at ht
  cases hs : ofShape t constants h type.shape with
  | error e' =>
    rw [hs] at ht
    cases ht
    exact .raised (ofShape_raises hs)
  | ok l =>
    rw [hs] at ht
    have hl := ofShape_eq_ok_iff.1 hs
    change (if _ then _ else _) = _ at ht
    split at ht
    · next ha =>
      cases ht
      exact .zeroAlignment hl ha
    · next ha =>
      split at ht
      · next hw =>
        cases ht
        simp only [wordLimit] at hw
        exact .sizeOverflow hl ha (by omega)
      · cases ht

lemma Accepts.ofType {type : GpuType} {l : Layout} (ha : Accepts t constants type l) :
    ofType t constants h type = .ok l := by
  have hw : ¬ wordLimit ≤ l.size := by
    have := ha.size_le
    simp only [wordLimit]
    omega
  simp only [Layout.ofType, ha.lays.ofShape]
  change (if _ then _ else _) = _
  rw [if_neg ha.alignment_ne, if_neg hw]
  rfl

lemma Refuses.ofType {type : GpuType} {e : LayoutError} (he : Refuses t constants h type e) :
    ofType t constants h type = .error e := by
  cases he with
  | raised he =>
    simp only [Layout.ofType, he.ofShape]
    rfl
  | zeroAlignment hl ha =>
    simp only [Layout.ofType, hl.ofShape]
    exact if_pos ha
  | @sizeOverflow l hl ha hs =>
    have hw : wordLimit ≤ l.size := by
      simp only [wordLimit]
      omega
    simp only [Layout.ofType, hl.ofShape]
    change (if _ then _ else _) = _
    rw [if_neg ha, if_pos hw]

lemma ofType_eq_ok_iff {type : GpuType} {l : Layout} :
    ofType t constants h type = .ok l ↔ Accepts t constants type l :=
  ⟨ofType_accepts, Accepts.ofType⟩

lemma ofType_eq_error_iff {type : GpuType} {e : LayoutError} :
    ofType t constants h type = .error e ↔ Refuses t constants h type e :=
  ⟨ofType_refuses, Refuses.ofType⟩

end Shape

end ShaderLayout.Layout
