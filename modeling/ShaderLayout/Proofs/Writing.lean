import ShaderLayout.Proofs.Listing

namespace ShaderLayout

open Layout Number

section Alignments

open Description

variable {table : Table} {t : Layouts} (hw : table.WellFormed)
  (hp : Prefix table.types table.constants table.types.size t)

include hw hp

lemma alignment_lt {b : Int} (hb : 2 ^ 32 ≤ b)
    (hgiven : ∀ h type, table.types.get? h = some type → ∀ a ∈ type.shape.givenAlignments, a < b) {h : Handle}
    {l : Layout} (hl : t[h.index]? = some l) : l.alignment < b := by
  by_contra hge
  induction hi : h.index using Nat.strong_induction_on generalizing h l with
  | _ i ih =>
    subst hi
    obtain ⟨type, ht⟩ := Arena.get?_of_index_lt ((Array.getElem?_eq_some_iff.1 hl).1.trans_eq hp.size_eq)
    have hgiven := hgiven h type ht
    obtain ⟨base, length, s, hs, hws⟩ | ⟨members, hs, m, hm, ⟨a, ha, hwa⟩ | ⟨-, hbefore, lm, hlm, hwm⟩⟩ :=
      wide_cases hp hw hb ht hl (Int.not_lt.1 hge)
    · have hlt := hgiven s (by simp [hs, Shape.givenAlignments])
      omega
    · have hlt := hgiven a (by rw [hs]; exact List.mem_filterMap.2 ⟨m, hm, ha⟩)
      omega
    · exact ih m.type.index hbefore hlm (Int.not_lt.2 hwm) rfl

variable (hwritable : table.AlignmentsWritable)

include hwritable

lemma alignment_writable {h : Handle} {l : Layout} (hl : t[h.index]? = some l) : Numeral.Writable l.alignment := by
  have hb : 10 ^ 12 ≤ Numeral.bound := Numeral.pow_le_bound (by decide)
  have hlt := alignment_lt hw hp (b := Numeral.bound) (by omega) (fun h type ht a ha => ?_) hl
  · have hpos := (Padded.sized hw hp l (Array.mem_of_getElem? hl)).2
    rw [Numeral.Writable]
    omega
  · have hw := hwritable h type ht a ha
    rw [Numeral.Writable] at hw
    omega

end Alignments

namespace Listing

open Text

section Rows

def MemberRow.Writable (m : MemberRow) : Prop := ∀ n ∈ [m.start, m.stop, m.alignment], Numeral.Writable n

structure Row.Writable (r : Row) : Prop where
  layout : ∀ n ∈ [r.size, r.alignment], Numeral.Writable n
  members : ∀ ms ∈ r.members, ∀ m ∈ ms, m.Writable

lemma forall_of_mapM {ε α β : Type} {f : α → Except ε β} {P : β → Prop} {l : List α} {bs : List β}
    (h : l.mapM f = .ok bs) (hf : ∀ a ∈ l, ∀ b, f a = .ok b → P b) : ∀ b ∈ bs, P b := by
  have hpairs := forall₂_of_mapM h
  intro b hb
  obtain ⟨i, hi, rfl⟩ := List.getElem_of_mem hb
  have hi' : i < l.length := hpairs.length_eq ▸ hi
  exact hf l[i] (List.getElem_mem hi') bs[i] (hpairs.get hi' hi)

lemma placeAll_alignment {t : Layouts} {members : List StructMember} {index : Nat} {offset : Int} {ps : List Placement}
    (h : placeAll t index offset members = .ok ps) : ∀ p ∈ ps, ∃ m ∈ members, ∃ l, t[m.type.index]? = some l ∧
      p.alignment = m.align.getD l.alignment := by
  induction members generalizing index offset ps with
  | nil =>
    cases h
    simp
  | cons m rest ih =>
    obtain ⟨p, hp, h⟩ := bind_ok h
    obtain ⟨ps', hps, h⟩ := bind_ok h
    obtain ⟨l, hl, hp⟩ := bind_ok hp
    cases h
    cases hp
    refine List.forall_mem_cons.2 ⟨⟨m, List.mem_cons_self, l, resolve_eq_ok_iff.1 hl, rfl⟩, fun p hmem => ?_⟩
    obtain ⟨m', hm', hl'⟩ := ih hps p hmem
    exact ⟨m', List.mem_cons_of_mem m hm', hl'⟩

open Description

variable {table : Table} {t : Layouts} (hw : table.WellFormed)
  (hp : Prefix table.types table.constants table.types.size t) (hwritable : table.AlignmentsWritable)

include hw hp hwritable

lemma placement_writable {h : Handle} {type : GpuType} {members : List StructMember} {ps : List Placement}
    (ht : table.types.get? h = some type) (hs : type.shape = .struct members)
    (hps : placements t members = .ok ps) {p : Placement} (hmem : p ∈ ps) :
    ∀ n ∈ [p.start, p.stop, p.alignment], Numeral.Writable n := by
  obtain ⟨ps', hps', -, hb⟩ := Padded.placements_bounded hw hp ht hs
  obtain rfl := Except.ok.inj (hps.symm.trans hps')
  obtain ⟨h1, h2, h3⟩ := hb p hmem
  obtain ⟨m, hm, l, hl, ha⟩ := placeAll_alignment hps p hmem
  have halign : Numeral.Writable p.alignment := by
    rw [ha]
    cases hma : m.align with
    | none => exact alignment_writable hw hp hwritable hl
    | some a =>
      refine hwritable h type ht a ?_
      rw [hs]
      exact List.mem_filterMap.2 ⟨m, hm, hma⟩
  have hstart : Numeral.Writable p.start := Numeral.writable_of_lt (by omega)
  have hstop : Numeral.Writable p.stop := Numeral.writable_of_lt (by omega)
  simp [hstart, hstop, halign]

lemma memberRows_writable {h : Handle} {type : GpuType} {members : List StructMember} {rs : List MemberRow}
    (ht : table.types.get? h = some type) (hs : type.shape = .struct members)
    (hr : memberRows table.types table.constants t members = .ok rs) : ∀ m ∈ rs, m.Writable := by
  rw [memberRows] at hr
  split at hr
  · cases hr
  · next ps hps =>
    refine forall_of_mapM hr ?_
    rintro ⟨p, m⟩ hpm r hrow
    have hn := placement_writable hw hp hwritable ht hs hps (List.of_mem_zip hpm).1
    simp only [memberRow] at hrow
    split at hrow
    · cases hrow
    · obtain ⟨text, -, hrow⟩ := bind_ok hrow
      cases hrow
      exact hn

lemma row_writable {i : Nat} {type : GpuType} {l : Layout} {r : Row} (ht : table.types.get? ⟨i⟩ = some type)
    (hl : t[i]? = some l) (hr : row table.types table.constants t i type l = .ok r) : r.Writable := by
  obtain ⟨l', hl', haccepts⟩ := hp.accepts_full ht
  obtain rfl := Option.some.inj (hl'.symm.trans hl)
  have hsize : Numeral.Writable l'.size := by
    have h1 := (Padded.sized hw hp l' (Array.mem_of_getElem? hl)).1
    have h2 := haccepts.size_le
    exact Numeral.writable_of_lt (by omega)
  have halign : Numeral.Writable l'.alignment := alignment_writable hw hp hwritable hl'
  obtain ⟨text, -, hr⟩ := bind_ok hr
  have hlayout : ∀ n ∈ [l'.size, l'.alignment], Numeral.Writable n := by simp [hsize, halign]
  simp only at hr
  split at hr
  · next members hs =>
    obtain ⟨ms, hms, hr⟩ := bind_ok hr
    obtain ⟨rs, hrs, hms⟩ :=
      bind_ok (x := memberRows table.types table.constants t members) (f := fun rs => pure (some rs)) hms
    cases hms
    cases hr
    refine ⟨hlayout, fun ms hms => ?_⟩
    cases hms
    exact memberRows_writable hw hp hwritable ht hs hrs
  · cases hr
    exact ⟨hlayout, by simp⟩

lemma rows_writable {rs : List Row} (hr : rows table.types table.constants t = .ok rs) : ∀ r ∈ rs, r.Writable := by
  refine forall_of_mapM hr ?_
  rintro ⟨⟨type, l⟩, i⟩ hmem r hrow
  have hentry := List.mem_zipIdx_iff_getElem?.1 hmem
  obtain ⟨htype, hlayout⟩ := List.getElem?_zip_eq_some.1 hentry
  rw [Array.getElem?_toList] at hlayout
  exact row_writable hw hp hwritable ((Arena.get?_eq_toList ..).trans htype) hlayout hrow

end Rows

section Documents

lemma written_ok {ps : Parts} (h : ∀ p ∈ ps, ∃ s, p = .ok s) : ∃ s, written ps = (s, none) := by
  induction ps with
  | nil => exact ⟨"", rfl⟩
  | cons p ps ih =>
    obtain ⟨⟨s, rfl⟩, hrest⟩ := List.forall_mem_cons.1 h
    obtain ⟨t, ht⟩ := ih hrest
    exact ⟨s ++ t, by rw [written, ht]⟩

lemma part_ok {numbers : List Int} (h : ∀ n ∈ numbers, Numeral.Writable n) (text : String) :
    ∃ s, part numbers text = .ok s := by
  have hall : (numbers.all fun n => decide (Numeral.Writable n)) = true := by
    simpa using h
  rw [part, if_pos hall]
  exact ⟨text, rfl⟩

lemma rowParts_ok {r : Row} (h : r.Writable) (w : Widths) (showMembers : Bool) (lowering : Option String) :
    ∀ p ∈ rowParts w showMembers r lowering, ∃ s, p = .ok s := by
  have hmembers : ∀ m ∈ if showMembers then r.members.getD [] else [], m.Writable := by
    cases showMembers with
    | false => simp
    | true =>
      cases hms : r.members with
      | none => simp
      | some ms => simpa using h.members ms hms
  simp only [rowParts, List.mem_append, List.mem_cons, List.mem_map]
  -- The bound in the parts is too large to be evaluated, so that they are not substituted.
  rintro p ((hp | ⟨m, hm, hp⟩) | ⟨s, -, hp⟩)
  · rw [hp]
    exact part_ok h.layout _
  · rw [← hp]
    exact part_ok (hmembers m hm) _
  · exact ⟨_, hp.symm⟩

lemma tableParts_ok {rs : List Row} (h : ∀ r ∈ rs, r.Writable) (showMembers : Bool)
    (lowerings : Option (List String)) : ∀ p ∈ tableParts rs showMembers lowerings, ∃ s, p = .ok s := by
  simp only [tableParts, List.mem_cons, List.mem_flatMap]
  rintro p (rfl | ⟨r, hr, hp⟩)
  · exact ⟨_, rfl⟩
  · exact rowParts_ok (h r hr) _ _ _ p hp

lemma allWritable_iff {xs : List Json} : Json.allWritable xs = true ↔ ∀ x ∈ xs, x.writable = true := by
  induction xs with
  | nil => simp [Json.allWritable]
  | cons x xs ih => simp [Json.allWritable, ih]

lemma fieldsWritable_iff {fields : List (String × Json)} :
    Json.fieldsWritable fields = true ↔ ∀ e ∈ fields, e.2.writable = true := by
  induction fields with
  | nil => simp [Json.fieldsWritable]
  | cons e fields ih => simp [Json.fieldsWritable, ih]

lemma orNull_writable (s : Option String) : (orNull s).writable = true := by
  cases s <;> rfl

lemma memberJson_writable {m : MemberRow} (h : m.Writable) : (memberJson m).writable = true := by
  rw [memberJson, Json.writable, fieldsWritable_iff]
  simp only [MemberRow.Writable, List.forall_mem_cons] at h
  simp [orNull_writable, Json.writable, h]

lemma rowJson_writable {r : Row} (h : r.Writable) (lowering : Option String) :
    (rowJson r lowering).writable = true := by
  rw [rowJson, Json.writable, fieldsWritable_iff]
  have hlayout := h.layout
  simp only [List.forall_mem_cons] at hlayout
  refine List.forall_mem_append.2 ⟨List.forall_mem_append.2 ⟨?_, ?_⟩, ?_⟩
  · simp [orNull_writable, Json.writable, hlayout]
  · rintro e he
    obtain ⟨ms, hms, rfl⟩ := List.mem_map.1 he
    rw [Json.writable, allWritable_iff]
    rintro x hx
    obtain ⟨m, hm, rfl⟩ := List.mem_map.1 hx
    exact memberJson_writable (h.members ms (Option.mem_toList.1 hms) m hm)
  · rintro e he
    obtain ⟨s, -, rfl⟩ := List.mem_map.1 he
    rfl

lemma document_ok {rs : List Row} (h : ∀ r ∈ rs, r.Writable) (source : String) (lowerings : Option (List String)) :
    ∃ text, (document source rs lowerings).text? = some text := by
  have hrows : (Json.array (rs.map fun r => rowJson r (lowerings.bind (·[r.handle]?)))).writable = true := by
    rw [Json.writable, allWritable_iff]
    rintro x hx
    obtain ⟨r, hr, rfl⟩ := List.mem_map.1 hx
    exact rowJson_writable (h r hr) _
  have hdocument : (document source rs lowerings).writable = true := by
    rw [document, Json.writable, fieldsWritable_iff]
    simp only [List.forall_mem_cons, hrows, List.not_mem_nil, false_imp_iff, implies_true, and_true]
    rfl
  exact ⟨_, by rw [Json.text?, if_pos hdocument]⟩

end Documents

end Listing

end ShaderLayout
