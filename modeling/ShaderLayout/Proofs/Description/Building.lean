import ShaderLayout.Proofs.Description.WellFormed

namespace ShaderLayout.Description

open Number

def Known (h : Handle) (t : Table) : Prop := h.index < t.types.size

def FormedIn (s : Shape) (t : Table) : Prop := s.Formed t.types.size t.constants.size

def LengthKnown (l : ArrayLength) (t : Table) : Prop := ∀ c, l = .constant c → c.index < t.constants.size

def MembersFormed (seen : List String) (ms : List StructMember) (t : Table) : Prop :=
  (∀ m ∈ ms, m.Formed t.types.size) ∧ (ms.map StructMember.name).Nodup ∧
    ∀ m ∈ ms, ∃ n, m.name = some n ∧ n ∉ seen

lemma predeclared_plain {name : String} {s : Scalar} (h : predeclared.lookup name = some s) : s.Plain := by
  obtain ⟨before, after, he, _⟩ := List.lookup_eq_some_iff.mp h
  have hm : (name, s) ∈ predeclared := he ▸ List.mem_append_right _ List.mem_cons_self
  have hall : ∀ e ∈ predeclared, e.2.width ∈ [1, 2, 4, 8] ∧ (e.2.kind = .float → e.2.width ∈ [2, 4, 8]) := by
    decide
  exact hall _ hm

lemma prefix_append {α : Type} (a : Arena α) (x : α) : a.toList <+: (a.append x).toList := by
  simp

section Primitive

variable {s : Progress}

lemma placeType_ends (s : Progress) (shape : Shape) (name : Option String) :
    Ends (Build.placeType shape name) s fun h s' =>
      (s.table.types.get? h = some ⟨shape, none⟩ ∧ s' = s) ∨ (h = s.table.types.next ∧
        s' = { s with table := { s.table with types := s.table.types.append ⟨shape, name⟩ } }) := by
  cases name with
  | some name => exact .inr ⟨rfl, rfl⟩
  | none =>
    let p := s.table.types.fetchOrAppend ⟨shape, none⟩
    change (s.table.types.get? p.1 = _ ∧ { s with table := { s.table with types := p.2 } } = s) ∨
      p.1 = _ ∧ { s with table := { s.table with types := p.2 } } = _
    rcases Arena.fetchOrAppend_cases s.table.types ⟨shape, none⟩ with ⟨h, y, he, hy, hb⟩ | he
    · rw [show p = _ from he]
      exact .inl ⟨hy.trans (congrArg some (eq_of_beq hb)), rfl⟩
    · rw [show p = _ from he]
      exact .inr ⟨rfl, rfl⟩

lemma shareConstant_ends (s : Progress) (value : ConstantValue) :
    Ends (Build.shareConstant value) s fun h s' =>
      (∃ v, s.table.constants.get? h = some v ∧ (v == ⟨value, none⟩) = true ∧ s' = s) ∨
      (h = s.table.constants.next ∧ s' = { s with table := { s.table with
        constants := s.table.constants.append ⟨value, none⟩ } }) := by
  let p := s.table.constants.fetchOrAppend ⟨value, none⟩
  change (∃ v, s.table.constants.get? p.1 = _ ∧ _ ∧
    { s with table := { s.table with constants := p.2 } } = s) ∨
    p.1 = _ ∧ { s with table := { s.table with constants := p.2 } } = _
  rcases Arena.fetchOrAppend_cases s.table.constants ⟨value, none⟩ with ⟨h, y, he, hy, hb⟩ | he
  · rw [show p = _ from he]
    exact .inl ⟨y, hy, hb, rfl⟩
  · rw [show p = _ from he]
    exact .inr ⟨rfl, rfl⟩

lemma adds_type (s : Progress) (type : GpuType) :
    Adds s { s with table := { s.table with types := s.table.types.append type } } :=
  ⟨prefix_append .., List.prefix_rfl, rfl, rfl, List.prefix_rfl⟩

lemma adds_constant (s : Progress) (c : Constant) :
    Adds s { s with table := { s.table with constants := s.table.constants.append c } } :=
  ⟨List.prefix_rfl, prefix_append .., rfl, rfl, List.prefix_rfl⟩

lemma placeType_answer (hw : s.table.WellFormed) {shape : Shape} (hf : FormedIn shape s.table)
    (name : Option String) : Ends (Build.placeType shape name) s fun h s' => Answer Known s (some h) s' := by
  apply (placeType_ends s shape name).mono
  rintro h s' (⟨hh, rfl⟩ | ⟨rfl, rfl⟩)
  · exact Answer.some hw (Arena.index_lt_of_get? hh)
  · refine ⟨hw.appendType hf, adds_type .., ?_, ?_⟩
    · rintro _ ⟨⟩
      simp [Known, Arena.next]
    · simp [not_erred_of_findings]

lemma shareConstant_answer (hw : s.table.WellFormed) {value : ScalarValue} :
    Ends (Build.shareConstant (.scalar 4 value)) s fun h s' =>
      Answer (fun h t => h.index < t.constants.size) s (some h) s' := by
  apply (shareConstant_ends s _).mono
  rintro h s' (⟨v, hv, _, rfl⟩ | ⟨rfl, rfl⟩)
  · exact Answer.some hw (Arena.index_lt_of_get? hv)
  · refine ⟨hw.appendConstant ⟨4, value, rfl, by simp⟩, adds_constant .., ?_, ?_⟩
    · rintro _ ⟨⟩
      simp [Arena.next]
    · simp [not_erred_of_findings]

lemma placing_answer {name : Option String} {m : Build (Option Shape)} (hm : Ends m s (Answer FormedIn s)) :
    Ends (Build.placing name m) s (Answer Known s) := by
  refine hm.bind_answer rfl fun shape s' hw _ hf => ?_
  exact (placeType_answer hw hf name).bind fun h s'' ha => Ends.pure ha

lemma attributes_answer (hw : s.table.WellFormed) (allowed : List AttributeKind) (target : String)
    (as : List Attribute) :
    Ends (Build.attributes allowed target as) s (Answer (fun accepted _ => ∀ e ∈ accepted, Granted e) s) := by
  have hg := Attribute.judgeAll_granted allowed target [] as (by simp)
  have he := Attribute.judgeAll_isError allowed target [] as
  let fs := (Attribute.judgeAll allowed target [] as).2
  change Answer _ s (if fs = [] then some (Attribute.judgeAll allowed target [] as).1 else none)
    { s with findings := s.findings ++ fs }
  refine ⟨hw, adds_findings s fs, fun accepted h => ?_, ?_⟩
  · split at h
    · cases h
      exact hg
    · cases h
  · rw [erred_findings_iff]
    cases hfs : fs with
    | nil => simp
    | cons f rest => simpa using .inl (he f (by simp [fs, hfs]))

end Primitive

section Leaf

variable {s : Progress}

lemma lookup_typeName (hw : s.table.WellFormed) {name : String} {h : Handle}
    (hl : s.table.typeNames.lookup name = some h) : Known h s.table := by
  obtain ⟨before, after, he, _⟩ := List.lookup_eq_some_iff.mp hl
  exact hw.typeNames (name, h) (he ▸ List.mem_append_right _ List.mem_cons_self)

lemma lookup_constantName (hw : s.table.WellFormed) {name : String} {h : Handle}
    (hl : s.table.constantNames.lookup name = some h) : h.index < s.table.constants.size := by
  obtain ⟨before, after, he, _⟩ := List.lookup_eq_some_iff.mp hl
  exact hw.constantNames (name, h) (he ▸ List.mem_append_right _ List.mem_cons_self)

lemma resolveType_answer (hw : s.table.WellFormed) (name : Token) :
    Ends (Build.resolveType name) s (Answer Known s) := by
  apply Ends.getTable
  split
  · next h hl => exact Ends.pure (Answer.some hw (lookup_typeName hw hl))
  · next scalar _ hp =>
    have hf : FormedIn (.scalar scalar) s.table := predeclared_plain hp
    exact (placeType_answer hw hf none).bind fun h s' ha => Ends.pure ha
  · split
    · exact Ends.fail_answer hw rfl _
    · exact Ends.fail_answer hw rfl _

lemma component_answer (hw : s.table.WellFormed) (name : Token) :
    Ends (Build.component name) s (Answer (fun c _ => c.Plain) s) := by
  refine (resolveType_answer hw name).bind_answer rfl fun h s' hw' _ _ => ?_
  apply Ends.getTable
  split
  · next c hc =>
    obtain ⟨type, ht, hs⟩ := Option.map_eq_some_iff.mp hc
    have hf := hw'.shapes h.index type ht
    rw [hs] at hf
    exact Ends.pure (Answer.some hw' hf)
  · exact Ends.fail_answer hw' rfl _

lemma vectorSize_answer (hw : s.table.WellFormed) (what : String) (t : Token) :
    Ends (Build.vectorSize what t) s (Answer (fun _ _ => True) s) := by
  rw [Build.vectorSize]
  split
  · exact Ends.pure (Answer.some hw trivial)
  · exact Ends.fail_answer hw rfl _

lemma vector_answer (hw : s.table.WellFormed) (size name : Token) :
    Ends (Build.vector size name) s (Answer FormedIn s) := by
  refine (vectorSize_answer hw _ size).bind fun n s' hn => ?_
  refine (component_answer hn.wellFormed name).bind fun c s'' hc => ?_
  have h := hn.both hc (g := Shape.vector) (R := FormedIn) fun _ _ _ h => h
  cases n <;> cases c <;> exact Ends.pure h

lemma matrix_answer (hw : s.table.WellFormed) (columns rows name : Token) :
    Ends (Build.matrix columns rows name) s (Answer FormedIn s) := by
  refine (vectorSize_answer hw _ columns).bind fun c s₁ hc => ?_
  refine (vectorSize_answer hc.wellFormed _ rows).bind fun r s₂ hr => ?_
  refine (component_answer hr.wellFormed name).bind fun k s₃ hk => ?_
  have hcr := hc.both hr (g := Prod.mk) (R := fun _ _ => True) fun _ _ _ _ => trivial
  cases k with
  | none => exact Ends.pure (hcr.then_none hk)
  | some k =>
    simp only
    split
    · next hf =>
      have hk' : Answer (fun k _ => k.width ∈ [2, 4, 8]) s₂ (some k) s₃ := by
        refine ⟨hk.wellFormed, hk.adds, ?_, hk.none_iff⟩
        rintro _ ⟨⟩
        exact (hk.good k rfl).2 hf
      have h := hcr.both hk' (R := FormedIn)
        (g := fun (p : VectorSize × VectorSize) (k : Scalar) => .matrix p.1 p.2 k.width) fun _ _ _ hw => hw
      cases c <;> cases r <;> exact Ends.pure h
    · exact (hcr.both hk (g := Prod.mk) (R := fun _ _ => True) fun _ _ _ _ => trivial).then_fail rfl _

lemma valuePointer_answer (hw : s.table.WellFormed) (region : Region) {h : Handle} (hk : Known h s.table) :
    Ends (Build.valuePointer region (some h)) s (Answer FormedIn s) := by
  apply Ends.getTable
  split
  · next c _ ht => exact Ends.pure (Answer.some hw (hw.shapes h.index _ ht))
  · next n c _ ht => exact Ends.pure (Answer.some hw (hw.shapes h.index _ ht))
  · exact Ends.fail_answer hw rfl _
  · next hn =>
    exact (Nat.not_lt.mpr (Array.getElem?_eq_none_iff.mp hn) hk).elim

lemma arrayLength_answer (hw : s.table.WellFormed) (length : Option Token) :
    Ends (Build.arrayLength length) s (Answer LengthKnown s) := by
  rw [Build.arrayLength.eq_def]
  split
  · exact Ends.pure (Answer.some hw (by simp [LengthKnown]))
  · next t =>
    split
    · apply Ends.getTable
      split
      · next h hl =>
        apply Ends.pure
        apply Answer.some hw
        rintro _ ⟨⟩
        exact lookup_constantName hw hl
      · split
        · exact Ends.fail_answer hw rfl _
        · exact Ends.fail_answer hw rfl _
    · split
      · exact Ends.fail_answer hw rfl _
      · next n suffix _ =>
        refine (shareConstant_answer hw).bind fun h s' ha => Ends.pure ?_
        refine ⟨ha.wellFormed, ha.adds, ?_, by simpa using ha.none_iff⟩
        rintro _ ⟨⟩ _ ⟨⟩
        exact ha.good h rfl

lemma image_answer (hw : s.table.WellFormed) (dimension : Token) (flag : Option Token) :
    Ends (Build.image dimension flag) s (Answer FormedIn s) := by
  rw [Build.image.eq_def]
  split
  · exact Ends.fail_answer hw rfl _
  · exact Ends.pure (Answer.some hw trivial)
  · split
    · exact Ends.pure (Answer.some hw trivial)
    · exact Ends.fail_answer hw rfl _

end Leaf

section Members

variable {s s' s'' : Progress}

def MemberFormed (seen : List String) (name : String) (m : StructMember) (t : Table) : Prop :=
  m.Formed t.types.size ∧ m.name = some name ∧ name ∉ seen

lemma memberFormed {seen : List String} {name : String} {accepted : Accepted} {h : Handle} {t : Table}
    (ha : ∀ e ∈ accepted, Granted e) (hh : Known h t) (hn : name ∉ seen) :
    MemberFormed seen name ⟨h, some name, accepted.lookup .align, accepted.lookup .size⟩ t := by
  refine ⟨⟨hh, fun a hl => ?_, fun n hl => ?_⟩, rfl, hn⟩
  · exact (Granted.of_lookup ha hl).2 rfl
  · exact (Granted.of_lookup ha hl).1

lemma membersFormed_cons {seen : List String} {name : String} {m : StructMember} {ms : List StructMember}
    {t t' : Table} (hle : t.types.size ≤ t'.types.size) (hm : MemberFormed seen name m t)
    (hms : MembersFormed (name :: seen) ms t') : MembersFormed seen (m :: ms) t' := by
  obtain ⟨hf, hn, hs⟩ := hm
  obtain ⟨hfs, hnd, hss⟩ := hms
  refine ⟨?_, ?_, ?_⟩
  · intro m' hm'
    rcases List.mem_cons.mp hm' with rfl | hm'
    · exact ⟨hf.1.trans_le hle, hf.2⟩
    · exact hfs m' hm'
  · rw [List.map_cons, List.nodup_cons]
    refine ⟨fun hmem => ?_, hnd⟩
    obtain ⟨m', hm', he⟩ := List.mem_map.mp hmem
    obtain ⟨n, hn', hnot⟩ := hss m' hm'
    rw [hn', hn] at he
    cases he
    exact hnot List.mem_cons_self
  · intro m' hm'
    rcases List.mem_cons.mp hm' with rfl | hm'
    · exact ⟨name, hn, hs⟩
    · obtain ⟨n, hn', hnot⟩ := hss m' hm'
      exact ⟨n, hn', fun h => hnot (List.mem_cons_of_mem _ h)⟩

lemma member_answer (hw : s.table.WellFormed) (seen : List String) (as : List Attribute) (name : Token)
    {type : TypeExpr}
    (htype : ∀ {s : Progress}, s.table.WellFormed → Ends (Build.typeExpr type none) s (Answer Known s)) :
    Ends (Build.member seen (.mk as name type)) s (Answer (MemberFormed seen name.text) s) := by
  rw [Build.member]
  refine (attributes_answer hw _ _ as).bind fun accepted s' ha => ?_
  refine (htype ha.wellFormed).bind fun ty s'' ht => ?_
  split
  · exact (ha.both ht (g := Prod.mk) (R := fun _ _ => True) fun _ _ _ _ => trivial).then_fail rfl _
  · next hn =>
    have h := ha.both ht (R := MemberFormed seen name.text)
      (g := fun a h => ⟨h, some name.text, a.lookup .align, a.lookup .size⟩)
      fun a h hg hk => memberFormed hg hk hn
    cases accepted <;> cases ty <;> exact Ends.pure h

end Members

section Syntax

mutual

theorem typeExpr_answer (e : TypeExpr) (name : Option String) {s : Progress} (hw : s.table.WellFormed) :
    Ends (Build.typeExpr e name) s (Answer Known s) := by
  obtain ⟨as, region, b⟩ := e
  rw [Build.typeExpr]
  refine (attributes_answer hw b.allowed b.target as).bind_answer rfl fun accepted s' hw' _ ha => ?_
  exact body_answer b region name hw' ha
termination_by structural e

theorem body_answer (b : Body) (region : Region) {accepted : Accepted} (name : Option String) {s : Progress}
    (hw : s.table.WellFormed) (ha : ∀ e ∈ accepted, Granted e) :
    Ends (Build.body region accepted name b) s (Answer Known s) := by
  cases b with
  | named n =>
    rw [Build.body]
    exact resolveType_answer hw n
  | vector size c =>
    rw [Build.body]
    exact placing_answer (vector_answer hw size c)
  | matrix columns rows c =>
    rw [Build.body]
    exact placing_answer (matrix_answer hw columns rows c)
  | pointer target =>
    rw [Build.body]
    apply placing_answer
    refine (typeExpr_answer target none hw).bind fun r s' h => Ends.pure ?_
    refine ⟨h.wellFormed, h.adds, fun shape hs => ?_, ?_⟩
    · obtain ⟨h', rfl, rfl⟩ := Option.map_eq_some_iff.mp hs
      exact h.good h' rfl
    · rw [← h.none_iff, Option.map_eq_none_iff]
  | valuePointer target =>
    rw [Build.body]
    apply placing_answer
    refine (typeExpr_answer target none hw).bind_answer rfl fun h s' hw' _ hk => ?_
    exact valuePointer_answer hw' _ hk
  | array element length =>
    rw [Build.body]
    apply placing_answer
    refine (typeExpr_answer element none hw).bind fun base s' hb => ?_
    refine (arrayLength_answer hb.wellFormed length).bind fun n s'' hn => ?_
    have h := hb.both hn (g := fun b n => Shape.array b n (accepted.lookup .stride)) (R := FormedIn)
      fun b n hb' hn' => ⟨hb'.trans_le hn.adds.types_size_le, hn', fun v hv => (Granted.of_lookup ha hv).1⟩
    cases base <;> cases n <;> exact Ends.pure h
  | struct ms =>
    rw [Build.body]
    apply placing_answer
    refine (members_answer ms [] hw).bind_answer rfl fun sms s' hw' _ hms => ?_
    have hf : FormedIn (.struct sms) s'.table := ⟨hms.1, hms.2.1⟩
    cases sms with
    | nil =>
      have hr := adds_findings s' [⟨.emptyStruct (name.getD "<anonymous>"), region⟩]
      refine ⟨hw', hr, ?_, ?_⟩
      · rintro _ ⟨⟩
        exact hf
      · have he : (Problem.emptyStruct (name.getD "<anonymous>")).isError = false := rfl
        change _ ↔ Erred s' { s' with findings := s'.findings ++ _ }
        simp [erred_findings_iff, he]
    | cons m rest => exact Ends.pure (Answer.some hw' hf)
  | image dimension flag =>
    rw [Build.body]
    exact placing_answer (image_answer hw dimension flag)
  | sampler comparison =>
    rw [Build.body]
    apply placing_answer
    exact Ends.pure (Answer.some hw trivial)
termination_by structural b

theorem members_answer (ms : List Member) (seen : List String) {s : Progress} (hw : s.table.WellFormed) :
    Ends (Build.members ms seen) s (Answer (MembersFormed seen) s) := by
  match ms with
  | [] =>
    rw [Build.members]
    exact Ends.pure (Answer.some hw ⟨by simp, by simp, by simp⟩)
  | .mk as name type :: rest =>
    rw [Build.members]
    refine (member_answer hw seen as name (typeExpr_answer type none)).bind fun first s' hf => ?_
    refine (members_answer rest (name.text :: seen) hf.wellFormed).bind fun others s'' ho => ?_
    have h := hf.both ho (g := List.cons) (R := MembersFormed seen)
      fun m ms hm hms => membersFormed_cons ho.adds.types_size_le hm hms
    cases first <;> cases others <;> exact Ends.pure h
termination_by structural ms

end

end Syntax

end ShaderLayout.Description
