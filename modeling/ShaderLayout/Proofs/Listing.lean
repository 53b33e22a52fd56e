import ShaderLayout.Listing
import ShaderLayout.Proofs.Padded.Describing

namespace ShaderLayout.Listing

open Description Layout Number

lemma mapM_ok {ε α β : Type} {f : α → Except ε β} {l : List α} (h : ∀ a ∈ l, ∃ b, f a = .ok b) :
    ∃ bs, l.mapM f = .ok bs ∧ List.Forall₂ (fun a b => f a = .ok b) l bs := by
  induction l with
  | nil => exact ⟨[], rfl, .nil⟩
  | cons a l ih =>
    obtain ⟨⟨b, hb⟩, hl⟩ := List.forall_mem_cons.1 h
    obtain ⟨bs, hbs, hall⟩ := ih hl
    refine ⟨b :: bs, ?_, .cons hb hall⟩
    rw [List.mapM_cons, hb]
    change (l.mapM f >>= fun bs => pure (b :: bs)) = _
    rw [hbs]
    rfl

section Text

variable {types : Arena GpuType} {constants : Arena Constant}

lemma formed_writable {i : Nat} (hi : i ≤ types.size) {s : Shape} (h : s.Formed i constants.size) :
    s.Writable types constants := by
  have short : ∀ {width : Int}, width ∈ [1, 2, 4, 8] → Numeral.Writable (width * 8) := by
    intro width hw
    simp only [List.mem_cons, List.not_mem_nil, or_false] at hw
    exact Numeral.writable_of_lt (by omega)
  cases s with
  | scalar s => exact .inr (short h.1)
  | vector _ c => exact .inr (short h.1)
  | valuePointer _ s => exact .inr (short h.1)
  | matrix _ _ width => exact short (List.mem_cons_of_mem _ h)
  | pointer base => exact .inl (lt_of_lt_of_le h hi)
  | array base length stride =>
    refine ⟨.inl (h.1.trans_le hi), ?_⟩
    cases length with
    | dynamic => trivial
    | constant c => exact .inl (h.2.1 c rfl)
  | _ => trivial

lemma text?_of_writable {type : GpuType} (h : type.shape.Writable types constants) :
    ∃ text, type.text? types constants = some text := by
  have hshape : type.shape.text? types constants = some type.shape.text := if_pos h
  rw [GpuType.text?]
  split
  · exact ⟨_, hshape⟩
  · split
    · exact ⟨_, hshape⟩
    · exact ⟨_, rfl⟩

end Text

def Records (types : Arena GpuType) (constants : Arena Constant) (m : StructMember) (r : MemberRow) : Prop :=
  r.name = m.name ∧ ∃ type, types.get? m.type = some type ∧ type.text? types constants = some r.type

structure Shows (types : Arena GpuType) (constants : Arena Constant) (i : Nat) (type : GpuType) (r : Row) : Prop where
  handle : r.handle = i
  members : ∀ members, type.shape = .struct members →
    ∃ rs, r.members = some rs ∧ List.Forall₂ (Records types constants) members rs
  no_members : (∀ members, type.shape ≠ .struct members) → r.members = none

section Growth

lemma bind_ok {ε α β : Type} {x : Except ε α} {f : α → Except ε β} {b : β} (h : x >>= f = .ok b) :
    ∃ a, x = .ok a ∧ f a = .ok b := by
  cases x with
  | error e => cases h
  | ok a => exact ⟨a, rfl, h⟩

lemma forall₂_of_mapM {ε α β : Type} {f : α → Except ε β} {l : List α} {bs : List β} (h : l.mapM f = .ok bs) :
    List.Forall₂ (fun a b => f a = .ok b) l bs := by
  induction l generalizing bs with
  | nil =>
    cases h
    exact .nil
  | cons a l ih =>
    rw [List.mapM_cons] at h
    obtain ⟨b, hb, h⟩ := bind_ok h
    obtain ⟨bs', hbs, h⟩ := bind_ok h
    cases h
    exact .cons hb (ih hbs)

lemma mapM_mono {ε α β : Type} {f g : α → Except ε β} {l : List α} {bs : List β} (hl : l.mapM f = .ok bs)
    (h : ∀ a b, f a = .ok b → g a = .ok b) : l.mapM g = .ok bs := by
  induction l generalizing bs with
  | nil => exact hl
  | cons a l ih =>
    rw [List.mapM_cons] at hl ⊢
    obtain ⟨b, hb, hl⟩ := bind_ok hl
    obtain ⟨bs', hbs, hl⟩ := bind_ok hl
    rw [h a b hb]
    change (l.mapM g >>= fun bs => pure (b :: bs)) = _
    rw [ih hbs]
    exact hl

lemma mapM_grow {ε α β : Type} {f g : α → Except ε β} {l l' : List α} {bs bs' : List β} (hl : l.mapM f = .ok bs)
    (h : ∀ a b, f a = .ok b → g a = .ok b) (hp : l <+: l') (hl' : l'.mapM g = .ok bs') : bs <+: bs' := by
  obtain ⟨m, rfl⟩ := hp
  rw [List.mapM_append, mapM_mono hl h] at hl'
  obtain ⟨cs, -, hcs⟩ := bind_ok (x := m.mapM g) (f := fun cs => pure (bs ++ cs)) hl'
  cases hcs
  exact List.prefix_append bs cs

lemma requireText_eq_ok {text? : Option String} {text : String} (h : Failure.requireText text? = .ok text) :
    text? = some text := by
  cases text? with
  | none => cases h
  | some s => exact congrArg some (Except.ok.inj h)

variable {types types' : Arena GpuType} {constants constants' : Arena Constant} {t t' : Layouts}
  (ht : types.toList <+: types'.toList) (hc : constants.toList <+: constants'.toList)

include ht hc

lemma writable_mono {s : Shape} (h : s.Writable types constants) : s.Writable types' constants' := by
  cases s with
  | pointer base => exact Arena.writes_mono ht h
  | array base length stride =>
    refine ⟨Arena.writes_mono ht h.1, ?_⟩
    cases length with
    | dynamic => trivial
    | constant c => exact Arena.writes_mono hc h.2
  | _ => exact h

lemma shapeText_mono {s : Shape} {text : String} (h : s.text? types constants = some text) :
    s.text? types' constants' = some text := by
  rw [Shape.text?] at h ⊢
  split at h
  · next hw => rwa [if_pos (writable_mono ht hc hw)]
  · cases h

lemma typeText_mono {type : GpuType} {text : String} (h : type.text? types constants = some text) :
    type.text? types' constants' = some text := by
  rw [GpuType.text?] at h ⊢
  cases hn : type.name with
  | none =>
    rw [hn] at h
    exact shapeText_mono ht hc h
  | some n =>
    rw [hn] at h
    simp only at h ⊢
    split at h
    · next hempty =>
      rw [if_pos hempty]
      exact shapeText_mono ht hc h
    · next hname => rwa [if_neg hname]

lemma memberRow_mono {p : Placement} {m : StructMember} {r : MemberRow}
    (hr : memberRow types constants p m = .ok r) : memberRow types' constants' p m = .ok r := by
  rw [memberRow] at hr ⊢
  cases htype : types.get? m.type with
  | none =>
    rw [htype] at hr
    cases hr
  | some type =>
    rw [htype] at hr
    obtain ⟨text, htext, hr⟩ := bind_ok hr
    rw [Arena.get?_mono ht htype]
    simp only [typeText_mono ht hc (requireText_eq_ok htext)]
    exact hr

lemma memberRows_mono (hk : Keeps t t') {members : List StructMember} {rs : List MemberRow}
    (hr : memberRows types constants t members = .ok rs) : memberRows types' constants' t' members = .ok rs := by
  rw [memberRows] at hr ⊢
  cases hp : placements t members with
  | error e =>
    rw [hp] at hr
    cases hr
  | ok ps =>
    rw [placements] at hp ⊢
    rw [placeAll_mono hk hp]
    rw [placements, hp] at hr
    exact mapM_mono hr fun _ _ => memberRow_mono ht hc

lemma row_mono (hk : Keeps t t') {i : Nat} {type : GpuType} {l : Layout} {r : Row}
    (hr : row types constants t i type l = .ok r) : row types' constants' t' i type l = .ok r := by
  rw [row] at hr ⊢
  obtain ⟨text, htext, hr⟩ := bind_ok hr
  rw [shapeText_mono ht hc (requireText_eq_ok htext)]
  cases hs : type.shape with
  | struct members =>
    rw [hs] at hr
    obtain ⟨ms, hms, hr⟩ := bind_ok hr
    obtain ⟨rs, hrs, hms⟩ := bind_ok (x := memberRows types constants t members) (f := fun rs => pure (some rs)) hms
    cases hms
    change ((some <$> memberRows types' constants' t' members) >>= _) = _
    rw [memberRows_mono ht hc hk hrs]
    exact hr
  | _ =>
    rw [hs] at hr
    exact hr

omit ht hc

lemma zip_grow {α β : Type} {l l' : List α} {m m' : List β} (hs : l.length = m.length) (hl : l <+: l')
    (hm : m <+: m') : l.zip m <+: l'.zip m' := by
  obtain ⟨a, rfl⟩ := hl
  obtain ⟨b, rfl⟩ := hm
  rw [List.zip_append hs]
  exact List.prefix_append ..

lemma zipIdx_grow {α : Type} {l l' : List α} (h : l <+: l') : l.zipIdx <+: l'.zipIdx := by
  obtain ⟨a, rfl⟩ := h
  rw [List.zipIdx_append]
  exact List.prefix_append ..

include ht hc

lemma rows_grow {rs rs' : List Row} (hk : t.toList <+: t'.toList) (hs : t.size = types.size)
    (hr : rows types constants t = .ok rs) (hr' : rows types' constants' t' = .ok rs') : rs <+: rs' :=
  mapM_grow hr (fun _ _ => row_mono ht hc (Keeps.of_isPrefix hk)) (zipIdx_grow (zip_grow hs.symm ht hk)) hr'

end Growth

section Table

variable {table : Table} {t : Layouts} (hw : table.WellFormed)
  (hp : Prefix table.types table.constants table.types.size t)

include hw

lemma shape_text {h : Handle} {type : GpuType} (ht : table.types.get? h = some type) :
    type.shape.text? table.types table.constants = some type.shape.text :=
  if_pos (formed_writable (Arena.index_lt_of_get? ht).le (hw.shapes h.index type ht))

lemma type_text {h : Handle} {type : GpuType} (ht : table.types.get? h = some type) :
    ∃ text, type.text? table.types table.constants = some text :=
  text?_of_writable (formed_writable (Arena.index_lt_of_get? ht).le (hw.shapes h.index type ht))

include hp

lemma memberRows_ok {h : Handle} {type : GpuType} {members : List StructMember}
    (ht : table.types.get? h = some type) (hs : type.shape = .struct members) :
    ∃ rs, memberRows table.types table.constants t members = .ok rs ∧
      List.Forall₂ (Records table.types table.constants) members rs := by
  obtain ⟨ps, hps, hnames, -⟩ := Padded.placements_bounded hw hp ht hs
  have hf := hw.shapes h.index type ht
  rw [hs] at hf
  have hm : ∀ m ∈ members, m.type.index < table.types.size := fun m hm =>
    (hf.1 m hm).1.trans (Arena.index_lt_of_get? ht)
  rw [memberRows, hps]
  clear hps hf hs
  induction hnames with
  | nil => exact ⟨[], rfl, .nil⟩
  | @cons p m ps ms hname _ ih =>
    obtain ⟨hm, hrest⟩ := List.forall_mem_cons.1 hm
    obtain ⟨mtype, hmt⟩ := Arena.get?_of_index_lt hm
    obtain ⟨text, htext⟩ := type_text hw hmt
    obtain ⟨rs, hrs, hall⟩ := ih hrest
    have hrow : memberRow table.types table.constants p m = .ok ⟨p.name, text, p.start, p.stop, p.alignment⟩ := by
      simp only [memberRow, hmt, htext]
      rfl
    refine ⟨⟨p.name, text, p.start, p.stop, p.alignment⟩ :: rs, ?_, .cons ⟨hname, mtype, hmt, htext⟩ hall⟩
    simp only [List.zip_cons_cons, List.mapM_cons, hrow] at hrs ⊢
    rw [hrs]
    rfl

lemma row_ok {i : Nat} {type : GpuType} (ht : table.types.get? ⟨i⟩ = some type) (l : Layout) :
    ∃ r, row table.types table.constants t i type l = .ok r ∧ Shows table.types table.constants i type r := by
  have htext := shape_text hw ht
  have hmembers : ∀ members, type.shape = .struct members → _ := fun _ => memberRows_ok hw hp ht
  simp only [row, htext]
  generalize hs : type.shape = s at hmembers
  cases s with
  | struct members =>
    obtain ⟨rs, hrs, hall⟩ := hmembers members rfl
    simp only [hrs]
    refine ⟨_, rfl, rfl, fun members' hs' => ?_, fun h => absurd hs (h members)⟩
    cases hs.symm.trans hs'
    exact ⟨rs, rfl, hall⟩
  | _ => exact ⟨_, rfl, rfl, by simp [hs], fun _ => rfl⟩

lemma rows_ok : ∃ rs, rows table.types table.constants t = .ok rs ∧ rs.length = table.types.size ∧
    ∀ i type, table.types.get? ⟨i⟩ = some type → ∃ r, rs[i]? = some r ∧ Shows table.types table.constants i type r := by
  let entries := (table.types.toList.zip t.toList).zipIdx
  have hlength : entries.length = table.types.size := by
    simp [entries, hp.size_eq, Arena.toList, Arena.size]
  have hentry : ∀ i e, entries[i]? = some e → e.2 = i ∧ table.types.get? ⟨i⟩ = some e.1.1 := by
    intro i e he
    simp only [entries, List.getElem?_zipIdx, Option.map_eq_some_iff, List.getElem?_zip_eq_some] at he
    obtain ⟨_, ⟨ht, -⟩, rfl⟩ := he
    exact ⟨Nat.zero_add i, (Arena.get?_eq_toList ..).trans ht⟩
  have hok : ∀ e ∈ entries, ∃ r, row table.types table.constants t e.2 e.1.1 e.1.2 = .ok r := by
    intro e hmem
    obtain ⟨j, hj⟩ := List.mem_iff_getElem?.1 hmem
    obtain ⟨rfl, ht⟩ := hentry j _ hj
    obtain ⟨r, hr, -⟩ := row_ok hw hp ht e.1.2
    exact ⟨r, hr⟩
  obtain ⟨rs, hrs, hall⟩ := mapM_ok hok
  refine ⟨rs, hrs, hall.length_eq ▸ hlength, fun i type ht => ?_⟩
  have hi : i < entries.length := hlength ▸ Arena.index_lt_of_get? ht
  have hrow := hall.get hi (hall.length_eq ▸ hi)
  obtain ⟨hindex, htype⟩ := hentry i _ (List.getElem?_eq_getElem hi)
  obtain rfl := Option.some.inj (ht.symm.trans htype)
  obtain ⟨r, hr, hshows⟩ := row_ok hw hp ht entries[i].1.2
  rw [List.get_eq_getElem] at hrow
  simp only [hindex, hr] at hrow
  refine ⟨r, ?_, hshows⟩
  rw [List.getElem?_eq_getElem (hall.length_eq ▸ hi), Except.ok.inj hrow]
  rfl

end Table

end ShaderLayout.Listing
