import ShaderLayout.Proofs.Layout.Bounds
import ShaderLayout.Proofs.Listing

namespace ShaderLayout.Layout

def endOf (offset : Int) : List Placement → Int
  | [] => offset
  | p :: ps => endOf p.stop ps

def widest (alignment : Int) (ps : List Placement) : Int := (ps.map Placement.alignment).foldl max alignment

def IsTwoPow (n : Int) : Prop := ∃ k : Nat, n = 2 ^ k

structure Placed (t : Layouts) (index : Nat) (offset : Int) (m : StructMember) (p : Placement) : Prop where
  index_eq : p.index = index
  name_eq : p.name = m.name
  extent : ∃ l, t[m.type.index]? = some l ∧ p.alignment = m.align.getD l.alignment ∧
    p.stop = p.start + m.size.getD l.size
  offset_le : offset ≤ p.start
  start_le : p.start ≤ p.stop
  gap_lt : p.start - offset < max 1 p.alignment
  gap_eq : IsTwoPow p.alignment → p.start = offset

/-- Members placed one after the other, the first at or after an offset and each at or after the end of the one
before it. -/
inductive InOrder (t : Layouts) : Nat → Int → List StructMember → List Placement → Prop
  | nil (index : Nat) (offset : Int) : InOrder t index offset [] []
  | cons {index : Nat} {offset : Int} {m : StructMember} {ms : List StructMember} {p : Placement}
      {ps : List Placement} (hp : Placed t index offset m p) (hr : InOrder t (index + 1) p.stop ms ps) :
      InOrder t index offset (m :: ms) (p :: ps)

variable {t : Layouts} {index : Nat} {offset : Int} {m : StructMember} {ms : List StructMember} {ps : List Placement}

section Placing

lemma placed_of_some {l : Layout} (hl : t[m.type.index]? = some l) (hs : 0 ≤ l.size) (ha : 0 ≤ l.alignment)
    (hm : m.NonNegative) (ho : 0 ≤ offset) (index : Nat) :
    ∃ p, place t index offset m = .ok p ∧ Placed t index offset m p := by
  have halign := hm.align_getD ha
  have hsize := hm.size_getD hs
  have hle := le_roundUp halign ho
  have hlt := roundUp_lt halign ho
  refine ⟨_, place_of_some hl index offset, rfl, rfl, ⟨l, hl, rfl, rfl⟩, hle, ?_, ?_, ?_⟩
  · simp only
    omega
  · simp only
    omega
  · rintro ⟨k, hk⟩
    simp only at hk ⊢
    rw [hk, roundUp_two_pow]

lemma placeAll_inOrder (ht : ∀ l ∈ t, 0 ≤ l.size ∧ 0 ≤ l.alignment)
    (hms : ∀ m ∈ ms, m.type.index < t.size ∧ m.NonNegative) (ho : 0 ≤ offset) (index : Nat) :
    ∃ ps, placeAll t index offset ms = .ok ps ∧ InOrder t index offset ms ps := by
  induction ms generalizing index offset with
  | nil => exact ⟨[], rfl, .nil index offset⟩
  | cons m ms ih =>
    obtain ⟨⟨hlt, hm⟩, hms⟩ := List.forall_mem_cons.1 hms
    obtain ⟨hs, ha⟩ := ht t[m.type.index] (Array.getElem_mem hlt)
    obtain ⟨p, hplace, hp⟩ := placed_of_some (Array.getElem?_eq_getElem hlt) hs ha hm ho index
    have hstop := ho.trans (hp.offset_le.trans hp.start_le)
    obtain ⟨ps, hps, hr⟩ := ih hms hstop (index + 1)
    refine ⟨p :: ps, ?_, .cons hp hr⟩
    rw [placeAll, hplace]
    change (placeAll t _ _ ms >>= fun ps => pure (p :: ps)) = _
    rw [hps]
    rfl

end Placing

section Order

variable (h : InOrder t index offset ms ps)

include h

lemma InOrder.le_endOf : offset ≤ endOf offset ps := by
  induction h with
  | nil => exact le_rfl
  | cons hp _ ih => exact hp.offset_le.trans (hp.start_le.trans ih)

lemma InOrder.within : ∀ p ∈ ps, offset ≤ p.start ∧ p.start ≤ p.stop ∧ p.stop ≤ endOf offset ps := by
  induction h with
  | nil => simp
  | cons hp hr ih =>
    refine List.forall_mem_cons.2 ⟨⟨hp.offset_le, hp.start_le, hr.le_endOf⟩, fun q hq => ?_⟩
    obtain ⟨hstart, hstop, hend⟩ := ih q hq
    exact ⟨(hp.offset_le.trans hp.start_le).trans hstart, hstop, hend⟩

lemma InOrder.apart : ps.Pairwise fun p q => p.stop ≤ q.start := by
  induction h with
  | nil => exact .nil
  | cons _ hr ih => exact .cons (fun q hq => (hr.within q hq).1) ih

lemma InOrder.length_eq : ps.length = ms.length := by
  induction h with
  | nil => rfl
  | cons _ _ ih => exact congrArg Nat.succ ih

lemma InOrder.member_lt : ∀ m ∈ ms, m.type.index < t.size := by
  induction h with
  | nil => simp
  | cons hp _ ih =>
    obtain ⟨l, hl, -, -⟩ := hp.extent
    exact List.forall_mem_cons.2 ⟨(Array.getElem?_eq_some_iff.1 hl).1, ih⟩

lemma InOrder.endOf_eq (hpow : ∀ p ∈ ps, IsTwoPow p.alignment) :
    endOf offset ps = offset + (ps.map Placement.size).sum := by
  induction h with
  | nil => simp [endOf]
  | @cons _ _ _ _ p ps hp _ ih =>
    obtain ⟨hfirst, hrest⟩ := List.forall_mem_cons.1 hpow
    have hstart := hp.gap_eq hfirst
    have hle := hp.start_le
    rw [endOf, ih hrest, List.map_cons, List.sum_cons, Placement.size]
    omega

end Order

section Alignments

lemma le_widest (alignment : Int) (ps : List Placement) : alignment ≤ widest alignment ps := by
  induction ps generalizing alignment with
  | nil => exact le_rfl
  | cons p ps ih => exact (le_max_left ..).trans (ih (max alignment p.alignment))

lemma IsTwoPow.max {a b : Int} (ha : IsTwoPow a) (hb : IsTwoPow b) : IsTwoPow (max a b) := by
  rcases le_total a b with h | h
  · rwa [max_eq_right h]
  · rwa [max_eq_left h]

lemma IsTwoPow.widest {alignment : Int} (ha : IsTwoPow alignment) (hps : ∀ p ∈ ps, IsTwoPow p.alignment) :
    IsTwoPow (widest alignment ps) := by
  induction ps generalizing alignment with
  | nil => exact ha
  | cons p ps ih =>
    obtain ⟨hp, hps⟩ := List.forall_mem_cons.1 hps
    exact ih (ha.max hp) hps

end Alignments

lemma Extent.placed {total alignment total' alignment' : Int} (h : Extent t total alignment ms total' alignment')
    (hps : placeAll t index total ms = .ok ps) : total' = endOf total ps ∧ alignment' = widest alignment ps := by
  induction h generalizing index ps with
  | nil =>
    cases hps
    exact ⟨rfl, rfl⟩
  | cons hl _ ih =>
    obtain ⟨l, p, ps, hl', hp, hrest, rfl⟩ := placeAll_cons hps
    rw [place_of_some hl] at hp
    cases hp
    exact ih hrest

section Rows

open Listing

structure Ranges (p : Placement) (r : MemberRow) : Prop where
  name : r.name = p.name
  start : r.start = p.start
  stop : r.stop = p.stop
  alignment : r.alignment = p.alignment

structure Lists (l : Layout) (ps : List Placement) (r : Row) : Prop where
  size : r.size = l.size
  alignment : r.alignment = l.alignment
  members : ∃ rs, r.members = some rs ∧ List.Forall₂ Ranges ps rs

variable {types : Arena GpuType} {constants : Arena Constant} {l : Layout}

lemma memberRows_ranges {rs : List MemberRow} (hps : placements t ms = .ok ps) (hlength : ps.length = ms.length)
    (hr : memberRows types constants t ms = .ok rs) : List.Forall₂ Ranges ps rs := by
  rw [memberRows, hps] at hr
  have hrows := forall₂_of_mapM hr
  clear hr hps
  induction ms generalizing ps rs with
  | nil =>
    obtain rfl := List.length_eq_zero_iff.1 hlength
    cases hrows
    exact .nil
  | cons m ms ih =>
    cases ps with
    | nil => cases hlength
    | cons p ps =>
      cases hrows with
      | cons hrow hrows =>
        refine .cons ?_ (ih (Nat.succ.inj hlength) hrows)
        simp only [memberRow] at hrow
        split at hrow
        · cases hrow
        · obtain ⟨text, -, hrow⟩ := bind_ok hrow
          cases hrow
          exact ⟨rfl, rfl, rfl, rfl⟩

lemma row_lists {i : Nat} {type : GpuType} {r : Row} (hs : type.shape = .struct ms)
    (hps : placements t ms = .ok ps) (hlength : ps.length = ms.length) (hr : row types constants t i type l = .ok r) :
    Lists l ps r := by
  rw [row, hs] at hr
  obtain ⟨text, -, hr⟩ := bind_ok hr
  obtain ⟨_, hmembers, hr⟩ := bind_ok hr
  obtain ⟨rs, hrs, hsome⟩ := bind_ok (x := memberRows types constants t ms) (f := fun rs => pure (some rs)) hmembers
  cases hsome
  cases hr
  exact ⟨rfl, rfl, rs, rfl, memberRows_ranges hps hlength hrs⟩

lemma rows_get {rows : List Row} (hr : Listing.rows types constants t = .ok rows) {i : Nat} {type : GpuType}
    (ht : types.get? ⟨i⟩ = some type) (hl : t[i]? = some l) :
    ∃ r, rows[i]? = some r ∧ row types constants t i type l = .ok r := by
  have hentries := forall₂_of_mapM hr
  have hentry : (types.toList.zip t.toList).zipIdx[i]? = some ((type, l), i) := by
    rw [Arena.get?_eq_toList] at ht
    simp [List.getElem?_zipIdx, List.getElem?_zip_eq_some, ht, hl]
  obtain ⟨hi, hget⟩ := List.getElem?_eq_some_iff.1 hentry
  have hi' : i < rows.length := hentries.length_eq ▸ hi
  have hrow := hentries.get hi hi'
  rw [List.get_eq_getElem, hget] at hrow
  exact ⟨rows[i], List.getElem?_eq_getElem hi', hrow⟩

end Rows

section Structs

variable {types : Arena GpuType} {constants : Arena Constant}

/-- How the members of a struct lie in it. Its layout was computed over the layouts of the types before it. -/
structure Houses (types : Arena GpuType) (constants : Arena Constant) (t : Layouts) (h : Handle)
    (ms : List StructMember) (l : Layout) (ps : List Placement) : Prop where
  placed : placements t ms = .ok ps
  inOrder : InOrder t 0 0 ms ps
  counted : structExtent (t.take h.index) 0 1 ms = .ok (endOf 0 ps, l.alignment)
  alignment_eq : l.alignment = widest 1 ps
  size_eq : l.size = roundUp l.alignment (endOf 0 ps)
  within : ∀ p ∈ ps, 0 ≤ p.start ∧ p.start ≤ p.stop ∧ p.stop ≤ l.size
  apart : ps.Pairwise fun p q => p.stop ≤ q.start
  tail_lt : l.size - endOf 0 ps < l.alignment
  size_eq_sum : (∀ p ∈ ps, IsTwoPow p.alignment) → l.size = (ps.map Placement.size).sum
  listed : ∀ rows, Listing.rows types constants t = .ok rows → ∃ r, rows[h.index]? = some r ∧ Lists l ps r

lemma Prefix.houses (hp : Prefix types constants types.size t)
    (hn : ∀ i type, types.get? ⟨i⟩ = some type → type.shape.NonNegative) {h : Handle} {type : GpuType}
    (ht : types.get? h = some type) (hs : type.shape = .struct ms) {l : Layout} (hl : t[h.index]? = some l) :
    ∃ ps, Houses types constants t h ms l ps := by
  have hlays := (hp.accepts h.index type l ht hl).lays
  have hsized := hp.sized hn
  have hms := hn h.index type ht
  rw [hs] at hlays hms
  cases hlays with
  | @struct _ total alignment he =>
    have hfull := he.mono (Keeps.take t h.index)
    obtain ⟨ps, hps, hio⟩ := placeAll_inOrder (fun l hl => ⟨(hsized l hl).1, (hsized l hl).2.le⟩)
      (fun m hm => ⟨hfull.member_lt m hm, hms m hm⟩) le_rfl 0
    obtain ⟨rfl, rfl⟩ := hfull.placed hps
    have hend := hio.le_endOf
    have hwide : 1 ≤ widest 1 ps := le_widest 1 ps
    have hround := le_roundUp (zero_le_one.trans hwide) hend
    have htail := roundUp_lt (zero_le_one.trans hwide) hend
    refine ⟨ps, hps, hio, structExtent_eq_ok_iff.2 he, rfl, rfl, fun p hp => ?_, hio.apart, ?_, fun hpow => ?_,
      fun rows hrows => ?_⟩
    · obtain ⟨hstart, hstop, hle⟩ := hio.within p hp
      exact ⟨hstart, hstop, hle.trans hround⟩
    · rw [max_eq_right hwide] at htail
      simp only
      omega
    · have hone : IsTwoPow 1 := ⟨0, rfl⟩
      obtain ⟨k, hk⟩ := hone.widest hpow
      simp only
      rw [hk, roundUp_two_pow, hio.endOf_eq hpow, zero_add]
    · obtain ⟨r, hr, hrow⟩ := rows_get hrows ht hl
      exact ⟨r, hr, row_lists hs hps hio.length_eq hrow⟩

variable (hall : ∀ h type, types.get? h = some type → type.shape.Writable types constants)

include hall

lemma memberRows_exist (hms : ∀ m ∈ ms, m.type.index < types.size) (hps : placements t ms = .ok ps) :
    ∃ rs, Listing.memberRows types constants t ms = .ok rs := by
  have hrow : ∀ pm ∈ ps.zip ms, ∃ r, Listing.memberRow types constants pm.1 pm.2 = .ok r := by
    intro pm hpm
    obtain ⟨type, ht⟩ := Arena.get?_of_index_lt (hms pm.2 (List.of_mem_zip hpm).2)
    obtain ⟨text, htext⟩ := Listing.text?_of_writable (hall _ type ht)
    refine ⟨⟨pm.1.name, text, pm.1.start, pm.1.stop, pm.1.alignment⟩, ?_⟩
    simp only [Listing.memberRow, ht, htext]
    rfl
  obtain ⟨rs, hrs, -⟩ := Listing.mapM_ok hrow
  exact ⟨rs, by rw [Listing.memberRows, hps]; exact hrs⟩

lemma rows_exist (hp : Prefix types constants types.size t)
    (hn : ∀ i type, types.get? ⟨i⟩ = some type → type.shape.NonNegative) :
    ∃ rows, Listing.rows types constants t = .ok rows := by
  have hrow : ∀ e ∈ (types.toList.zip t.toList).zipIdx, ∃ r, Listing.row types constants t e.2 e.1.1 e.1.2 = .ok r := by
    rintro ⟨⟨type, l⟩, i⟩ he
    simp only [List.mem_zipIdx_iff_getElem?, List.getElem?_zip_eq_some] at he
    obtain ⟨ht, hl⟩ := he
    rw [← Arena.get?_eq_toList types ⟨i⟩] at ht
    rw [Array.getElem?_toList] at hl
    have htext : type.shape.text? types constants = some type.shape.text := if_pos (hall _ type ht)
    simp only [Listing.row, htext]
    cases hs : type.shape with
    | struct ms =>
      obtain ⟨ps, hps⟩ := hp.houses hn ht hs hl
      have hms : ∀ m ∈ ms, m.type.index < types.size := hp.size_eq ▸ hps.inOrder.member_lt
      obtain ⟨rs, hrs⟩ := memberRows_exist hall hms hps.placed
      simp only [hrs]
      exact ⟨_, rfl⟩
    | _ => exact ⟨_, rfl⟩
  obtain ⟨rows, hrows, -⟩ := Listing.mapM_ok hrow
  exact ⟨rows, hrows⟩

end Structs

/-- Members that are not negative can be placed, in order and apart. In a table of layouts the placements of a struct
are those that its layout was counted from, and its row shows them. -/
theorem members_in_order :
    (∀ (t : Layouts) (ms : List StructMember), (∀ l ∈ t, 0 ≤ l.size ∧ 0 ≤ l.alignment) →
      (∀ m ∈ ms, m.type.index < t.size ∧ m.NonNegative) → ∃ ps, placements t ms = .ok ps ∧ InOrder t 0 0 ms ps) ∧
    ∀ (types : Arena GpuType) (constants : Arena Constant) (t : Layouts),
      (∀ i type, types.get? ⟨i⟩ = some type → type.shape.NonNegative) → table types constants = .ok t →
        (∀ h type ms, types.get? h = some type → type.shape = .struct ms →
          ∃ l ps, t[h.index]? = some l ∧ Houses types constants t h ms l ps) ∧
        ((∀ h type, types.get? h = some type → type.shape.Writable types constants) →
          ∃ rows, Listing.rows types constants t = .ok rows) := by
  refine ⟨fun t ms ht hms => placeAll_inOrder ht hms le_rfl 0, fun types constants t hn ht => ?_⟩
  have hp := table_prefix ht
  refine ⟨fun h type ms hh hs => ?_, fun hall => rows_exist hall hp hn⟩
  obtain ⟨l, hl, -⟩ := hp.accepts_full hh
  obtain ⟨ps, hps⟩ := hp.houses hn hh hs hl
  exact ⟨l, ps, hl, hps⟩

theorem members_in_order_padded :
    let types : Arena GpuType := .ofList [⟨.scalar ⟨.uint, 4⟩, none⟩,
      ⟨.struct [⟨⟨0⟩, some "a", none, some 5⟩, ⟨⟨0⟩, some "b", some 12, none⟩], some "S"⟩]
    let t : Layouts := #[⟨4, 4⟩, ⟨17, 12⟩]
    (∀ i type, types.get? ⟨i⟩ = some type → type.shape.NonNegative) ∧ table types .empty = .ok t ∧
      Houses types .empty t ⟨1⟩ [⟨⟨0⟩, some "a", none, some 5⟩, ⟨⟨0⟩, some "b", some 12, none⟩] ⟨17, 12⟩
        [⟨0, some "a", 0, 5, 4⟩, ⟨1, some "b", 13, 17, 12⟩] := by
  intro types t
  have hn : ∀ i type, types.get? ⟨i⟩ = some type → type.shape.NonNegative := by
    rintro (_ | _ | i) type h
    all_goals simp [types, Arena.get?, Arena.ofList] at h
    all_goals subst h
    all_goals simp [Shape.NonNegative, StructMember.NonNegative]
  have ht : table types .empty = .ok t := rfl
  obtain ⟨l, ps, hl, hps⟩ := (members_in_order.2 types .empty t hn ht).1 ⟨1⟩ _ _ rfl rfl
  cases hl
  have hplaced := hps.placed
  cases hplaced
  exact ⟨hn, ht, hps⟩

end ShaderLayout.Layout
