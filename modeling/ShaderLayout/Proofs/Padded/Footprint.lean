import ShaderLayout.Proofs.Layout.Bounds
import ShaderLayout.Proofs.Padded.Meaning

namespace ShaderLayout.Padded

open Layout

mutual

def footprint : Padded → Int
  | int bits => (bits : Int) / 8
  | half => 2
  | float => 4
  | double => 8
  | array count element => count * element.footprint
  | empty => 0
  | packed elements => footprints elements

def footprints : List Padded → Int
  | [] => 0
  | p :: ps => p.footprint + footprints ps

end

/-- The slot of a member: what comes before its element takes the bytes from `offset` up to its start,
and the element, which is the member's type made to fit, takes its size. -/
def SlotsExact (R : Handle → Padded → Prop) (t : Layouts) (offset : Int) (members : List StructMember)
    (ps : List Placement) (slots : List Slot) : Prop :=
  ps.length = members.length ∧ slots.length = members.length ∧
    ∀ (i : Nat) (m : StructMember) (p : Placement) (s : Slot), members[i]? = some m → ps[i]? = some p →
      slots[i]? = some s →
      offset + footprints ((slots.take i).flatMap Slot.elements ++ s.gap) = p.start ∧
        s.element.footprint = p.size ∧
        ∃ q l, R m.type q ∧ t.resolve m.type = .ok l ∧ s.element = fit q l.size p.size

def StructExact (R : Handle → Padded → Prop) (t : Layouts) (members : List StructMember) (p : Padded) :
    Prop :=
  ∃ (ps : List Placement) (slots : List Slot) (tail : List Padded),
    Layout.placements t members = .ok ps ∧ p = .packed (slots.flatMap Slot.elements ++ tail) ∧
      SlotsExact R t 0 members ps slots

def ArrayExact (t : Layouts) (base : Handle) (stride : Option Int) (l : Layout) (p : Padded) : Prop :=
  ∃ count element, p = .array count element ∧ Stride t base stride l.alignment ∧
    element.footprint = l.alignment ∧ count * l.alignment = l.size

variable {types : Arena GpuType} {constants : Arena Constant} {t : Layouts}

@[simp] lemma footprint_bytes (n : Int) : (bytes n).footprint = n := by
  simp [bytes, footprint]

@[simp] lemma footprints_append (ps qs : List Padded) :
    footprints (ps ++ qs) = footprints ps + footprints qs := by
  induction ps with
  | nil => simp [footprints]
  | cons p ps ih => simp [footprints, ih, add_assoc]

lemma footprint_fit {q : Padded} {size : Int} (hq : q.footprint = size) (target : Int) :
    (fit q size target).footprint = target := by
  rw [fit]
  split
  · next h => rw [hq, h]
  split
  · simp [footprint, footprints, hq]
  · exact footprint_bytes target

lemma ofScalar_footprint {s : Scalar} {p : Padded} (h : ofScalar s = .ok p) : p.footprint = s.width := by
  rw [ofScalar] at h
  split at h
  · split at h
    · next hw => cases h; exact hw.symm
    split at h
    · next hw => cases h; exact hw.symm
    split at h
    · next hw => cases h; exact hw.symm
    split at h <;> cases h
  · split at h
    · cases h
    · cases h
      simp only [footprint]
      omega

lemma Slot.footprints_elements (s : Slot) :
    footprints s.elements = footprints s.gap + s.element.footprint := by
  simp [Slot.elements, footprints]

lemma footprints_gap {start stop : Int} (h : start ≤ stop) :
    start + footprints (if start < stop then [bytes (stop - start)] else []) = stop := by
  split
  · simp [footprints]
  · simp only [footprints]
    omega

section Members

variable {R : Handle → Padded → Prop}

lemma SlotsExact.cons {offset : Int} {m : StructMember} {rest : List StructMember} {p : Placement}
    {ps : List Placement} {s : Slot} {slots : List Slot} {q : Padded} {l : Layout}
    (hg : offset + footprints s.gap = p.start) (he : s.element.footprint = p.size)
    (hs : p.start + p.size = p.stop) (hq : R m.type q) (hl : t.resolve m.type = .ok l)
    (hf : s.element = fit q l.size p.size) (h : SlotsExact R t p.stop rest ps slots) :
    SlotsExact R t offset (m :: rest) (p :: ps) (s :: slots) := by
  obtain ⟨h1, h2, h3⟩ := h
  refine ⟨by simp [h1], by simp [h2], fun i m' p' s' hm hp hs' => ?_⟩
  cases i with
  | zero =>
    cases hm
    cases hp
    cases hs'
    exact ⟨by simpa using hg, he, q, l, hq, hl, hf⟩
  | succ i =>
    obtain ⟨h4, h5⟩ := h3 i m' p' s' hm hp hs'
    refine ⟨?_, h5⟩
    rw [← h4, List.take_succ_cons, List.flatMap_cons, List.append_assoc, footprints_append,
      Slot.footprints_elements]
    omega

lemma Fills.exact (hR : ∀ h q l, R h q → t.resolve h = .ok l → q.footprint = l.size)
    (ht : ∀ l ∈ t, Sized l) {ms : List StructMember} (hm : ∀ m ∈ ms, m.NonNegative) {index : Nat}
    {offset stop : Int} {ps : List Placement} {slots : List Slot} (ho : 0 ≤ offset)
    (hp : placeAll t index offset ms = .ok ps) (hs : Fills R t offset (ps.zip ms) slots stop) :
    SlotsExact R t offset ms ps slots ∧ offset + footprints (slots.flatMap Slot.elements) = stop ∧
      ∀ alignment total alignment', Extent t offset alignment ms total alignment' → total = stop := by
  induction ms generalizing index offset ps slots with
  | nil =>
    cases hp
    cases hs
    refine ⟨⟨rfl, rfl, by simp⟩, by simp [footprints], ?_⟩
    rintro alignment total alignment' ⟨⟩
    rfl
  | cons m rest ih =>
    obtain ⟨hm, hrest⟩ := List.forall_mem_cons.1 hm
    obtain ⟨l, p, ps', hl, hpl, hp', rfl⟩ := placeAll_cons hp
    cases hs with
    | @cons _ _ _ _ _ slots l' q hl' hq hc hs =>
      obtain rfl : l = l' := Option.some.inj (hl.symm.trans (resolve_eq_ok_iff.1 hl'))
      rw [place_of_some hl] at hpl
      cases hpl
      obtain ⟨hsize, halign⟩ := ht l (Array.mem_of_getElem? hl)
      have h1 := le_roundUp (hm.align_getD halign.le) ho
      have h2 := hm.size_getD hsize
      obtain ⟨h3, h4, h5⟩ := ih hrest (by simp only; omega) hp' hs
      have hq' := footprint_fit (hR _ _ _ hq hl')
      have hg := footprints_gap h1
      have hsz : ∀ start : Int, start + max 0 (start + m.size.getD l.size - start) =
          start + m.size.getD l.size := by
        intro start
        omega
      refine ⟨.cons hg (hq' _) (hsz _) hq hl' rfl h3, ?_, ?_⟩
      · rw [List.flatMap_cons, footprints_append, Slot.footprints_elements, hq', ← h4]
        have := hsz (roundUp (m.align.getD l.alignment) offset)
        simp only [Placement.size]
        omega
      · rintro alignment total alignment' (_ | ⟨hl'', he⟩)
        rw [hl] at hl''
        cases hl''
        exact h5 _ _ _ he

end Members

def cacheAfter (types : Arena GpuType) (t : Layouts) (calls : List Handle) : Cache :=
  calls.foldl (fun c h => ((lower types t h).run.run c).2) []

lemma sound_cacheAfter (types : Arena GpuType) (t : Layouts) (calls : List Handle) :
    Sound types t (cacheAfter types t calls) :=
  List.foldlRecOn calls _ Sound.nil fun c hc h _ => (lower_returns types t h c hc).1

section Shape

variable {R : Handle → Padded → Prop} {h : Handle} {l : Layout} {p : Padded}

lemma LowersShape.arrayExact (hR : ∀ h q l, R h q → t.resolve h = .ok l → q.footprint = l.size)
    {base : Handle} {length : ArrayLength} {stride : Option Int}
    (hs : LowersShape R t h (.array base length stride) p) (hl : t.resolve h = .ok l)
    (hlays : Lays t constants (.array base length stride) l) (ha : l.alignment ≠ 0) :
    ArrayExact t base stride l p := by
  cases hs with
  | array hl' hq hb =>
    obtain rfl := Except.ok.inj (hl.symm.trans hl')
    refine ⟨_, _, rfl, ?_, footprint_fit (hR _ _ _ hq hb) _, ?_⟩
    · cases hlays with
      | array _ hst => exact hst
    · cases hlays with
      | array hn hst => rw [Int.mul_fdiv_cancel _ ha]

lemma ArrayExact.footprint {base : Handle} {stride : Option Int} (h : ArrayExact t base stride l p) :
    p.footprint = l.size := by
  obtain ⟨count, element, rfl, _, he, hc⟩ := h
  rw [Padded.footprint, he, hc]

lemma LowersShape.structExact (hR : ∀ h q l, R h q → t.resolve h = .ok l → q.footprint = l.size)
    (ht : ∀ l ∈ t, Sized l) {members : List StructMember} (hm : ∀ m ∈ members, m.NonNegative)
    (hs : LowersShape R t h (.struct members) p) (hl : t.resolve h = .ok l)
    (hlays : Lays t constants (.struct members) l) : StructExact R t members p ∧ p.footprint = l.size := by
  cases hs with
  | struct hp hs hl' =>
    obtain rfl := Except.ok.inj (hl.symm.trans hl')
    obtain ⟨hslots, hf, hstop⟩ := hs.exact hR ht hm le_rfl hp
    refine ⟨⟨_, _, _, hp, rfl, hslots⟩, ?_⟩
    cases hlays with
    | struct he =>
      obtain rfl := hstop _ _ _ he
      obtain ⟨h1, h2⟩ := he.le ht hm le_rfl
      have := footprints_gap (le_roundUp (zero_le_one.trans h2) h1)
      rw [Padded.footprint, footprints_append]
      simp only
      omega

end Shape

section Table

variable (hn : ∀ i type, types.get? ⟨i⟩ = some type → type.shape.NonNegative)
  (hp : Prefix types constants types.size t)

include hn hp

lemma LowersShape.footprint {R : Handle → Padded → Prop} {h : Handle} {type : GpuType} {l : Layout}
    {p : Padded} (hR : ∀ h q l, R h q → t.resolve h = .ok l → q.footprint = l.size)
    (hs : LowersShape R t h type.shape p) (ht : types.get? h = some type) (hl : t.resolve h = .ok l) :
    p.footprint = l.size := by
  obtain ⟨l', hl', ha⟩ := hp.accepts_full ht
  obtain rfl : l' = l := Option.some.inj (hl'.symm.trans (resolve_eq_ok_iff.1 hl))
  have hsized := hp.sized hn
  have hnn := hn h.index type ht
  have hlays := ha.lays
  generalize type.shape = s at hs hlays hnn
  cases hs with
  | scalar hp =>
    cases hlays
    exact ofScalar_footprint hp
  | vector hp =>
    cases hlays
    simp [Padded.footprint, ofScalar_footprint hp]
  | matrix hp =>
    cases hlays
    simp [Padded.footprint, ofScalar_footprint hp, mul_assoc]
  | pointer base =>
    cases hlays
    rfl
  | valuePointer n s =>
    cases hlays
    rfl
  | array hl' hq hb => exact (LowersShape.arrayExact hR (.array hl' hq hb) hl hlays ha.alignment_ne).footprint
  | struct hp hs hl' => exact (LowersShape.structExact hR hsized hnn (.struct hp hs hl') hl hlays).2
  | image dimension arrayed =>
    cases hlays
    rfl
  | sampler comparison =>
    cases hlays
    rfl

lemma LowersWithin.footprint (depth : Nat) {h : Handle} {p : Padded} {l : Layout}
    (hl : LowersWithin types t depth h p) (hr : t.resolve h = .ok l) : p.footprint = l.size := by
  induction depth generalizing h p l with
  | zero => exact hl.elim
  | succ depth ih =>
    obtain ⟨type, ht, hs⟩ := hl
    exact hs.footprint hn hp (fun _ _ _ hq hq' => ih hq hq') ht hr

lemma Lowers.footprint {h : Handle} {p : Padded} {l : Layout} (hl : Lowers types t h p)
    (hr : t.resolve h = .ok l) : p.footprint = l.size := by
  obtain ⟨depth, hl⟩ := hl
  exact hl.footprint hn hp depth hr

end Table

/-- Whatever was lowered before, the type that a lowering returns takes the bytes of the layout. -/
theorem footprint_lower (hn : ∀ i type, types.get? ⟨i⟩ = some type → type.shape.NonNegative)
    (ht : Layout.table types constants = .ok t) (calls : List Handle) (h : Handle) {p : Padded}
    (hl : ((lower types t h).run.run (cacheAfter types t calls)).1 = .ok p) :
    ∃ type l, types.get? h = some type ∧ t.resolve h = .ok l ∧ p.footprint = l.size ∧
      (∀ members, type.shape = .struct members → StructExact (Lowers types t) t members p) ∧
      ∀ base length stride, type.shape = .array base length stride → ArrayExact t base stride l p := by
  have hp := table_prefix ht
  have hlow := (lower_returns types t h _ (sound_cacheAfter types t calls)).2 p hl
  obtain ⟨type, htype, hs⟩ := lowers_iff.1 hlow
  obtain ⟨l, hl', ha⟩ := hp.accepts_full htype
  have hr := resolve_eq_ok_iff.2 hl'
  have hR : ∀ h q l, Lowers types t h q → t.resolve h = .ok l → q.footprint = l.size :=
    fun _ _ _ hq hq' => hq.footprint hn hp hq'
  refine ⟨type, l, htype, hr, hlow.footprint hn hp hr, fun members he => ?_, fun base length stride he => ?_⟩
  · have hlays := ha.lays
    have hnn := hn h.index type htype
    rw [he] at hs hlays hnn
    exact (hs.structExact hR (hp.sized hn) hnn hr hlays).1
  · have hlays := ha.lays
    rw [he] at hs hlays
    exact hs.arrayExact hR hr hlays ha.alignment_ne

theorem footprint_lower_padded :
    let types : Arena GpuType := .ofList [⟨.scalar ⟨.float, 4⟩, none⟩,
      ⟨.struct [⟨⟨0⟩, some "a", some 16, none⟩, ⟨⟨0⟩, some "b", none, some 2⟩], some "S"⟩,
      ⟨.array ⟨1⟩ (.constant ⟨0⟩) (some 48), some "L"⟩]
    let constants : Arena Constant := .ofList [⟨.scalar 4 (.uint 3), none⟩]
    let t : Layouts := #[⟨4, 4⟩, ⟨6, 16⟩, ⟨144, 48⟩]
    (∀ i type, types.get? ⟨i⟩ = some type → type.shape.NonNegative) ∧
      Layout.table types constants = .ok t ∧
      ∃ p, ((lower types t ⟨2⟩).run.run (cacheAfter types t [⟨1⟩])).1 = .ok p ∧ p.footprint = 144 := by
  intro types constants t
  have hn : ∀ i type, types.get? ⟨i⟩ = some type → type.shape.NonNegative := by
    rintro (_ | _ | _ | i) type h
    all_goals simp [types, Arena.get?, Arena.ofList] at h
    all_goals subst h
    all_goals simp [Shape.NonNegative, StructMember.NonNegative]
  have ht : Layout.table types constants = .ok t := by rfl
  refine ⟨hn, ht, _, rfl, ?_⟩
  obtain ⟨type, l, _, hl, hf, _⟩ := footprint_lower hn ht [⟨1⟩] ⟨2⟩ rfl
  cases hl
  exact hf

end ShaderLayout.Padded
