import ShaderLayout.Proofs.Description.Ranges
import ShaderLayout.Proofs.Description.Changing
import ShaderLayout.Proofs.Padded.Descent

namespace ShaderLayout

def Placement.Bounded (p : Placement) : Prop := 0 ≤ p.start ∧ p.start ≤ p.stop ∧ p.stop < 2 ^ 32

namespace Padded

open Layout Number

@[simp] lemma allWritable_append (ps qs : List Padded) :
    allWritable (ps ++ qs) = (allWritable ps && allWritable qs) := by
  induction ps with
  | nil => rfl
  | cons p ps ih => simp [allWritable, ih, Bool.and_assoc]

lemma int_writable {bits : Nat} (h : bits ≤ 64) : (int bits).writable = true := by
  rw [writable, decide_eq_true_eq]
  exact Numeral.writable_of_lt (by omega)

lemma bytes_writable {n : Int} (h : Numeral.Writable n) : (bytes n).writable = true := by
  have h8 : (int 8).writable = true := int_writable (by decide)
  rw [bytes, writable, h8, decide_eq_true h, Bool.and_self]

lemma array_writable {n : VectorSize} {p : Padded} (hp : p.writable = true) :
    (Padded.array n.toNat p).writable = true := by
  have hn : Numeral.Writable (n.toNat : Int) := Numeral.writable_of_lt (by cases n <;> decide)
  simp [writable, hn, hp]

lemma fit_writable {q : Padded} {size target : Int} (hq : q.writable = true) (hs : 0 ≤ size)
    (ht : Numeral.Writable target) : (fit q size target).writable = true := by
  rw [fit]
  split
  · exact hq
  split
  · have hd : Numeral.Writable (target - size) := Numeral.writable_of_natAbs_le ht (by omega)
    simp [writable, allWritable, hq, bytes_writable hd]
  · exact bytes_writable ht

lemma ofScalar_plain {s : Scalar} (hs : s.Plain) : ∃ p, ofScalar s = .ok p ∧ p.writable = true := by
  obtain ⟨hw, hf⟩ := hs
  rw [ofScalar]
  split
  · next hk =>
    have hw := hf hk
    simp only [List.mem_cons, List.not_mem_nil, or_false] at hw
    obtain h | h | h := hw
    · exact ⟨half, by simp [h], rfl⟩
    · exact ⟨float, by simp [h], rfl⟩
    · exact ⟨double, by simp [h], rfl⟩
  · simp only [List.mem_cons, List.not_mem_nil, or_false] at hw
    rw [if_neg (by omega)]
    exact ⟨_, rfl, int_writable (by omega)⟩

lemma matrix_plain {columns rows : VectorSize} {width : Int} {i n : Nat}
    (hf : (Shape.matrix columns rows width).Formed i n) : Scalar.Plain ⟨.float, width⟩ :=
  ⟨List.mem_cons_of_mem _ hf, fun _ => hf⟩

variable {t : Layouts}

lemma Fills.writable {R : Handle → Padded → Prop} (hR : ∀ h q, R h q → q.writable = true)
    (ht : ∀ l ∈ t, Sized l) {offset stop : Int} {pms : List (Placement × StructMember)} {slots : List Slot}
    (hs : Fills R t offset pms slots stop) (ho : 0 ≤ offset) (hp : ∀ pm ∈ pms, pm.1.Bounded) :
    0 ≤ stop ∧ allWritable (slots.flatMap Slot.elements) = true := by
  induction hs with
  | nil => exact ⟨ho, rfl⟩
  | @cons offset stop p m rest slots l q hl hq _ _ ih =>
    obtain ⟨⟨h1, h2, h3⟩, hr⟩ := List.forall_mem_cons.1 hp
    simp only at h1 h2 h3
    obtain ⟨hstop, hrest⟩ := ih (by omega) hr
    refine ⟨hstop, ?_⟩
    have hgap : allWritable (if offset < p.start then [bytes (p.start - offset)] else []) = true := by
      split
      · simp [allWritable, bytes_writable (n := p.start - offset) (Numeral.writable_of_lt (by omega))]
      · rfl
    have hsize : Numeral.Writable p.size := Numeral.writable_of_lt (by rw [Placement.size]; omega)
    have hfit := fit_writable (hR _ _ hq) (ht l (Array.mem_of_getElem? (resolve_eq_ok_iff.1 hl))).1 hsize
    simp [Slot.elements, allWritable, hgap, hfit, hrest]

section Table

open Description

variable {table : Table}

lemma resolves (hp : Prefix table.types table.constants table.types.size t) {h : Handle}
    (hh : h.index < table.types.size) : ∃ l, t.resolve h = .ok l :=
  ⟨_, resolve_eq_ok_iff.2 (Array.getElem?_eq_getElem (hp.size_eq ▸ hh))⟩

lemma descends (hw : table.WellFormed) : Descends table.types := by
  intro h type ht r hr
  have hf := hw.shapes h.index type ht
  generalize type.shape = s at hr hf
  cases s with
  | array base length stride =>
    obtain rfl := List.mem_singleton.1 hr
    exact hf.1
  | struct members =>
    obtain ⟨m, hm, rfl⟩ := List.mem_map.1 hr
    exact (hf.1 m hm).1
  | _ => cases hr

variable (hw : table.WellFormed) (hp : Prefix table.types table.constants table.types.size t)

include hw hp

lemma sized : ∀ l ∈ t, Sized l :=
  hp.sized fun i type hi => Shape.Formed.nonNegative (hw.shapes i type hi)

lemma placements_bounded {h : Handle} {type : GpuType} {members : List StructMember}
    (ht : table.types.get? h = some type) (hs : type.shape = .struct members) :
    ∃ ps, Layout.placements t members = .ok ps ∧ List.Forall₂ (fun p m => p.name = m.name) ps members ∧
      ∀ p ∈ ps, p.Bounded := by
  obtain ⟨l, _, hlays, _, hsize⟩ := hp.accepts_full ht
  have hn := Shape.Formed.nonNegative (hw.shapes h.index type ht)
  rw [hs] at hlays hn
  cases hlays with
  | @struct _ total alignment he =>
    obtain ⟨h1, h2⟩ := he.le (sized hw hp) hn le_rfl
    have h3 := le_roundUp (zero_le_one.trans h2) h1
    obtain ⟨ps, hps, hnames, hb⟩ := he.placements (sized hw hp) hn le_rfl 0
    refine ⟨ps, hps, hnames, fun p hmem => ?_⟩
    obtain ⟨h4, h5, h6⟩ := hb p hmem
    simp only at hsize
    exact ⟨h4, h5, by omega⟩

lemma not_blocks {h : Handle} {type : GpuType} (ht : table.types.get? h = some type) (e : Failure) :
    ¬ Blocks t h type.shape e := by
  have hf := hw.shapes h.index type ht
  have hh := Arena.index_lt_of_get? ht
  have unresolved : ∀ {h : Handle} {e : LayoutError}, h.index < table.types.size → t.resolve h ≠ .error e := by
    intro h e hh he
    obtain ⟨l, hl⟩ := resolves hp hh
    rw [hl] at he
    cases he
  have plain : ∀ {s : Scalar} {e : Failure}, s.Plain → ofScalar s ≠ .error e := by
    intro s e hs he
    obtain ⟨p, hp, _⟩ := ofScalar_plain hs
    rw [hp] at he
    cases he
  intro hb
  generalize hs : type.shape = s at hb hf
  cases hb with
  | scalar he => exact plain hf he
  | vector he => exact plain hf he
  | @matrix columns rows width _ he => exact plain (matrix_plain hf) he
  | array he => exact unresolved hh he
  | element he => exact unresolved (hf.1.trans hh) he
  | struct he => exact unresolved hh he
  | member hm he => exact unresolved ((hf.1 _ hm).1.trans hh) he
  | placing he =>
    obtain ⟨ps, hps, _⟩ := placements_bounded hw hp ht hs
    rw [hps] at he
    cases he
  | size hps hmem he =>
    obtain ⟨ps, hps', _, hb⟩ := placements_bounded hw hp ht hs
    obtain rfl := Except.ok.inj (hps.symm.trans hps')
    obtain ⟨h1, h2, h3⟩ := hb _ hmem
    rw [countedSize_eq_ok_iff.2 ⟨?_, rfl⟩] at he
    · cases he
    · simp only [Placement.size, Placement.largestSize]
      omega

variable (hwritable : table.AlignmentsWritable)

include hwritable

lemma stride_writable {h base : Handle} {type : GpuType} {length : ArrayLength} {stride : Option Int} {s : Int}
    (ht : table.types.get? h = some type) (hs : type.shape = .array base length stride) (hst : Stride t base stride s) :
    Numeral.Writable s := by
  have hf := hw.shapes h.index type ht
  rw [hs] at hf
  cases hst with
  | given => exact hwritable h type ht s (by simp [hs, Shape.givenAlignments])
  | @natural b hb =>
    obtain ⟨btype, hbt⟩ := Arena.get?_of_index_lt (hf.1.trans (Arena.index_lt_of_get? ht))
    obtain ⟨_, hbl, hba⟩ := hp.accepts_full hbt
    obtain rfl := Option.some.inj (hb.symm.trans hbl)
    have h1 := Accepts.natural_le hba (hw.shapes _ _ hbt) (sized hw hp)
    obtain ⟨h2, h3⟩ := sized hw hp b (Array.mem_of_getElem? hb)
    have h4 := le_roundUp h3.le h2
    exact Numeral.writable_of_lt (by omega)

lemma LowersShape.writable {R : Handle → Padded → Prop} (hR : ∀ h q, R h q → q.writable = true) {h : Handle}
    {type : GpuType} {p : Padded} (ht : table.types.get? h = some type) (hs : LowersShape R t h type.shape p) :
    p.writable = true := by
  have hf := hw.shapes h.index type ht
  have hn := Shape.Formed.nonNegative hf
  have hsized := sized hw hp
  obtain ⟨l, hl, ha⟩ := hp.accepts_full ht
  have hlays := ha.lays
  have hsize := ha.size_le
  generalize hshape : type.shape = s at hs hf hn hlays
  cases hs with
  | scalar he =>
    obtain ⟨p', hp', hw'⟩ := ofScalar_plain hf
    exact Except.ok.inj (he.symm.trans hp') ▸ hw'
  | vector he =>
    obtain ⟨p', hp', hw'⟩ := ofScalar_plain hf
    exact array_writable (Except.ok.inj (he.symm.trans hp') ▸ hw')
  | matrix he =>
    obtain ⟨p', hp', hw'⟩ := ofScalar_plain (matrix_plain hf)
    exact array_writable (array_writable (Except.ok.inj (he.symm.trans hp') ▸ hw'))
  | pointer => exact int_writable (by decide)
  | valuePointer => exact int_writable (by decide)
  | @array base length stride l' b q hl' hq hb =>
    obtain rfl := Option.some.inj (hl.symm.trans (resolve_eq_ok_iff.1 hl'))
    have hb' := resolve_eq_ok_iff.1 hb
    cases hlays with
    | @array _ _ _ n s hcount hst =>
      have hn' : Numeral.Writable n := by
        cases hcount with
        | dynamic => exact Numeral.writable_of_lt (by decide)
        | @constant c v m => exact Numeral.writable_of_lt (by omega)
      have hs' := stride_writable hw hp hwritable ht hshape hst
      have hfit := fit_writable (hR _ _ hq) (hsized b (Array.mem_of_getElem? hb')).1 hs'
      simp [Padded.writable, Int.mul_fdiv_cancel _ ha.alignment_ne, hn', hfit]
  | @struct members ps slots stop l' hps hfill hl' =>
    obtain rfl := Option.some.inj (hl.symm.trans (resolve_eq_ok_iff.1 hl'))
    obtain ⟨ps', hps', _, hb⟩ := placements_bounded hw hp ht hshape
    obtain rfl := Except.ok.inj (hps.symm.trans hps')
    obtain ⟨hstop, hslots⟩ := hfill.writable hR hsized le_rfl fun pm hpm => hb _ (List.of_mem_zip hpm).1
    have htail : allWritable (if stop < l.size then [bytes (l.size - stop)] else []) = true := by
      split
      · simp [allWritable, bytes_writable (n := l.size - stop) (Numeral.writable_of_lt (by omega))]
      · rfl
    simp [Padded.writable, hslots, htail]
  | image => rfl
  | sampler => rfl

lemma Lowers.writable {h : Handle} {p : Padded} (hl : Lowers table.types t h p) : p.writable = true := by
  obtain ⟨depth, hl⟩ := hl
  induction depth generalizing h p with
  | zero => exact hl.elim
  | succ depth ih =>
    obtain ⟨type, ht, hs⟩ := hl
    exact hs.writable hw hp hwritable (fun _ _ => ih) ht

lemma describe_run {h : Handle} (hh : h.index < table.types.size) {c : Cache} (hc : Sound table.types t c) :
    ∃ text c', (describe table.types t h).run.run c = (.ok text, c') ∧ Sound table.types t c' ∧
      ∃ p, Lowers table.types t h p ∧ p.text? = some text := by
  have hstops : Stops (Sound table.types t) (lower table.types t h) fun _ => False := by
    refine lower_stops (descends hw) (fun _ _ ht e hb => not_blocks hw hp ht e hb) fun hn => ?_
    exact absurd hh (Nat.not_lt.2 (Array.getElem?_eq_none_iff.1 hn))
  obtain ⟨hs, hl⟩ := lower_returns table.types t h c hc
  have hstops := hstops c hc
  rw [describe, Returns.run_bind]
  generalize (lower table.types t h).run.run c = r at hs hl hstops
  obtain ⟨r, c'⟩ := r
  cases r with
  | error e => exact (hstops e rfl).elim
  | ok p =>
    have hlow := hl p rfl
    have htext : p.text? = some p.text := if_pos (hlow.writable hw hp hwritable)
    refine ⟨p.text, c', ?_, hs, p, hlow, htext⟩
    simp only [htext]
    rfl

lemma describe_mapM (calls : List Handle) (hcalls : ∀ h ∈ calls, h.index < table.types.size) {c : Cache}
    (hc : Sound table.types t c) :
    ∃ texts, ((calls.mapM (describe table.types t)).run.run c).1 = .ok texts ∧
      List.Forall₂ (fun h text => ∃ p, Lowers table.types t h p ∧ p.text? = some text) calls texts := by
  induction calls generalizing c with
  | nil => exact ⟨[], rfl, .nil⟩
  | cons h calls ih =>
    obtain ⟨hh, hcalls⟩ := List.forall_mem_cons.1 hcalls
    obtain ⟨text, c', hrun, hc', hlow⟩ := describe_run hw hp hwritable hh hc
    obtain ⟨texts, hruns, hlows⟩ := ih hcalls hc'
    refine ⟨text :: texts, ?_, .cons hlow hlows⟩
    rw [List.mapM_cons, Returns.run_bind, hrun]
    simp only [Returns.run_bind]
    generalize (calls.mapM (describe table.types t)).run.run c' = r at hruns
    obtain ⟨r, c''⟩ := r
    cases hruns
    rfl

end Table

end Padded

end ShaderLayout
