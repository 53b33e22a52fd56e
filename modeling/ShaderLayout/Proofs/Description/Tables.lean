import ShaderLayout.Proofs.Description.Building
import ShaderLayout.Proofs.Layout.Bounds

namespace ShaderLayout.Description

open Number

structure Extends (s s' : Progress) : Prop where
  types : s.table.types.toList <+: s'.table.types.toList
  constants : s.table.constants.toList <+: s'.table.constants.toList
  typeNames : s.table.typeNames <+: s'.table.typeNames
  constantNames : s.table.constantNames <+: s'.table.constantNames
  findings : s.findings <+: s'.findings

namespace Extends

variable {s s' s'' : Progress}

lemma refl (s : Progress) : Extends s s :=
  ⟨List.prefix_rfl, List.prefix_rfl, List.prefix_rfl, List.prefix_rfl, List.prefix_rfl⟩

lemma trans (h : Extends s s') (h' : Extends s' s'') : Extends s s'' :=
  ⟨h.types.trans h'.types, h.constants.trans h'.constants, h.typeNames.trans h'.typeNames,
    h.constantNames.trans h'.constantNames, h.findings.trans h'.findings⟩

end Extends

lemma Adds.extends {s s' : Progress} (h : Adds s s') : Extends s s' :=
  ⟨h.types, h.constants, h.typeNames ▸ List.prefix_rfl, h.constantNames ▸ List.prefix_rfl, h.findings⟩

structure Fresh (name : String) (t : Table) : Prop where
  typeNames : t.typeNames.lookup name = none
  constantNames : t.constantNames.lookup name = none
  predeclared : predeclared.lookup name = none

lemma Fresh.of_adds {name : String} {s s' : Progress} (h : Fresh name s.table) (ha : Adds s s') :
    Fresh name s'.table :=
  ⟨ha.typeNames ▸ h.typeNames, ha.constantNames ▸ h.constantNames, h.predeclared⟩

lemma not_mem_keys {α : Type} {l : List (String × α)} {name : String} (h : l.lookup name = none) :
    name ∉ l.map Prod.fst := by
  intro hm
  obtain ⟨e, he, rfl⟩ := List.mem_map.mp hm
  simpa using List.lookup_eq_none_iff.mp h e he

lemma Fresh.not_mem {name : String} {t : Table} (h : Fresh name t) :
    name ∉ t.typeNames.map Prod.fst ++ t.constantNames.map Prod.fst ++
      Description.predeclared.map Prod.fst := by
  simp only [List.mem_append, not_or]
  exact ⟨⟨not_mem_keys h.typeNames, not_mem_keys h.constantNames⟩, not_mem_keys h.predeclared⟩

section Items

variable {s : Progress}

lemma literal_answer (hw : s.table.WellFormed) (value : Literal) :
    Ends (Build.literal value) s
      (Answer (fun v _ => ∃ width x, v = .scalar width x ∧ width ∈ [1, 2, 4, 8]) s) := by
  cases value with
  | integer t =>
    simp only [Build.literal]
    split
    · exact Ends.fail_answer hw rfl _
    · exact Ends.pure (Answer.some hw ⟨4, _, rfl, by simp⟩)
  | float t => exact Ends.pure (Answer.some hw ⟨4, _, rfl, by simp⟩)
  | boolean b r => exact Ends.pure (Answer.some hw ⟨1, _, rfl, by simp⟩)

lemma checkFresh_ends (s : Progress) (name : Token) :
    Ends (Build.checkFresh name) s fun b s' =>
      s'.table = s.table ∧ Adds s s' ∧ (b = true → Fresh name.text s.table) ∧ (b = false ↔ Erred s s') := by
  apply Ends.getTable
  split
  · apply Ends.bind (P := fun _ s' => s' = { s with
      findings := s.findings ++ [⟨.alreadyDefined name.text, name.region⟩] })
    · exact rfl
    · rintro _ _ rfl
      apply Ends.pure
      have he : (Problem.alreadyDefined name.text).isError = true := rfl
      exact ⟨rfl, adds_findings s _, by simp, by simp [erred_findings_iff, he]⟩
  · next h =>
    apply Ends.pure
    simp only [not_or, Option.not_isSome_iff_eq_none] at h
    exact ⟨rfl, .refl s, fun _ => ⟨h.1, h.2.1, h.2.2⟩, by simp [not_erred_self]⟩

lemma Table.WellFormed.defineConstant {t : Table} (hw : t.WellFormed) {name : String} (hf : Fresh name t)
    {c : Constant} (hc : Constant.Plain c) :
    { t with constants := t.constants.append c
             constantNames := t.constantNames ++ [(name, t.constants.next)] : Table }.WellFormed := by
  have hw' := hw.appendConstant hc
  refine ⟨hw'.shapes, hw'.constants, hw'.typeNames, ?_, ?_⟩
  · intro e he
    rcases List.mem_append.mp he with he | he
    · exact hw'.constantNames e he
    · rw [List.mem_singleton.mp he]
      simp [Arena.next]
  · simp only [List.map_append, List.map_cons, List.map_nil, List.append_assoc, List.cons_append,
      List.nil_append]
    rw [← List.append_assoc, List.nodup_middle, List.nodup_cons]
    exact ⟨hf.not_mem, hw.fresh⟩

lemma Table.WellFormed.defineType {t : Table} (hw : t.WellFormed) {name : String} (hf : Fresh name t)
    {h : Handle} (hh : Known h t) : { t with typeNames := t.typeNames ++ [(name, h)] }.WellFormed := by
  refine ⟨hw.shapes, hw.constants, ?_, hw.constantNames, ?_⟩
  · intro e he
    rcases List.mem_append.mp he with he | he
    · exact hw.typeNames e he
    · rw [List.mem_singleton.mp he]
      exact hh
  · simp only [List.map_append, List.map_cons, List.map_nil, List.append_assoc, List.cons_append,
      List.nil_append]
    rw [List.nodup_middle, List.nodup_cons]
    simpa only [List.append_assoc] using And.intro hf.not_mem hw.fresh

lemma item_keeps (hw : s.table.WellFormed) (i : Item) :
    Ends (Build.item i) s fun _ s' => s'.table.WellFormed ∧ Extends s s' := by
  cases i with
  | constant region name value =>
    refine (literal_answer hw value).bind fun r s₁ h => ?_
    cases r with
    | none => exact Ends.pure ⟨h.wellFormed, h.adds.extends⟩
    | some v =>
      refine (checkFresh_ends s₁ name).bind fun b s₂ hb => ?_
      obtain ⟨ht, ha, hf, -⟩ := hb
      cases b with
      | false => exact Ends.pure ⟨ht ▸ h.wellFormed, (h.adds.trans ha).extends⟩
      | true =>
        have hw₂ : s₂.table.WellFormed := ht ▸ h.wellFormed
        have hf₂ : Fresh name.text s₂.table := ht ▸ hf rfl
        have hd := hw₂.defineConstant hf₂ (c := ⟨v, some name.text⟩) (h.good v rfl)
        refine ⟨hd, (h.adds.trans ha).extends.trans ?_⟩
        exact ⟨List.prefix_rfl, prefix_append .., List.prefix_rfl, List.prefix_append .., List.prefix_rfl⟩
  | type region name expr =>
    refine (checkFresh_ends s name).bind fun b s₁ hb => ?_
    obtain ⟨ht, ha, hf, -⟩ := hb
    cases b with
    | false => exact Ends.pure ⟨ht ▸ hw, ha.extends⟩
    | true =>
      refine (typeExpr_answer expr (some name.text) (ht ▸ hw)).bind fun r s₂ h => ?_
      cases r with
      | none => exact Ends.pure ⟨h.wellFormed, (ha.trans h.adds).extends⟩
      | some k =>
        have hf₂ := (ht ▸ hf rfl : Fresh name.text s₁.table).of_adds h.adds
        refine ⟨h.wellFormed.defineType hf₂ (h.good k rfl), (ha.trans h.adds).extends.trans ?_⟩
        exact ⟨List.prefix_rfl, List.prefix_rfl, List.prefix_append .., List.prefix_rfl, List.prefix_rfl⟩

end Items

section Build

lemma items_keeps (is : List Item) {s : Progress} (hw : s.table.WellFormed) :
    Ends (Build.items is) s fun _ s' => s'.table.WellFormed ∧ Extends s s' := by
  induction is generalizing s with
  | nil => exact ⟨hw, .refl s⟩
  | cons i rest ih =>
    have hi := item_keeps hw i
    have hr := ih hi.1
    exact ⟨hr.1, hi.2.trans hr.2⟩

lemma build_append (is js : List Item) : build (is ++ js) = ((Build.items js).run (build is)).2 := by
  simp only [build, Build.items, List.forM_eq_forM, List.forM_append, StateT.run_bind]
  rfl

lemma build_wellFormed (is : List Item) : (build is).table.WellFormed :=
  (items_keeps is .empty).1

lemma build_extends (is js : List Item) : Extends (build is) (build (is ++ js)) := by
  rw [build_append]
  exact (items_keeps js (build_wellFormed is)).2

def readingOf (is : List Item) : Reading := ⟨some (build is).table, (build is).findings⟩

lemma read_of_parse {source : String} {is : List Item} (h : parse source = .ok is) : read source = readingOf is := by
  rw [read, h]
  rfl

lemma read_accepted {source : String} {t : Table} (h : (read source).accepted? = some t) :
    ∃ is, parse source = .ok is ∧ (build is).table = t ∧
      ∀ f ∈ (build is).findings, f.problem.isError = false := by
  rw [read] at h
  split at h
  · simp [Reading.accepted?] at h
  · next is hp =>
    change (if _ then none else some (build is).table) = some t at h
    by_cases he : (build is).findings.any (·.problem.isError) = true
    · rw [Reading.hasErrors, if_pos he] at h
      cases h
    · rw [Reading.hasErrors, if_neg he] at h
      refine ⟨is, hp, Option.some.inj h, ?_⟩
      simpa using he

end Build

section Layouts

open Layout

lemma StructMember.Formed.nonNegative {i : Nat} {m : StructMember} (h : m.Formed i) : m.NonNegative := by
  obtain ⟨_, ha, hs⟩ := h
  refine ⟨fun a hm => ?_, fun n hm => (hs n hm).le⟩
  obtain ⟨k, rfl⟩ := ha a hm
  positivity

lemma Scalar.Plain.width_pos {s : Scalar} (h : s.Plain) : 0 < s.width := by
  have := h.1
  simp at this
  omega

lemma Shape.Formed.nonNegative {i n : Nat} {s : Shape} (h : s.Formed i n) : s.NonNegative := by
  cases s with
  | scalar s => exact (Scalar.Plain.width_pos h).le
  | vector n c => exact (Scalar.Plain.width_pos h).le
  | matrix columns rows width =>
    simp [Shape.Formed] at h
    simp only [Shape.NonNegative]
    omega
  | array base length stride => exact fun s hs => (h.2.2 s hs).le
  | struct members => exact fun m hm => StructMember.Formed.nonNegative (h.1 m hm)
  | _ => trivial

variable {t : Layouts} {constants : Arena Constant}

lemma Shape.Formed.of_alignment_eq_zero {i n : Nat} {s : Shape} (h : s.Formed i n) {l : Layout}
    (hl : Lays t constants s l) (ht : ∀ l ∈ t, Sized l) (ha : l.alignment = 0) :
    ∃ base length b, s = .array base length none ∧ t.resolve base = .ok b ∧ b.size = 0 := by
  cases hl with
  | scalar s =>
    have := Scalar.Plain.width_pos h
    simp only at ha
    omega
  | vector n c =>
    have := Scalar.Plain.width_pos h
    simp only at ha
    split at ha <;> omega
  | matrix columns rows width =>
    simp [Shape.Formed] at h
    simp only at ha
    split at ha <;> omega
  | @array base length stride n s hn hs =>
    cases hs with
    | given =>
      have := h.2.2 _ rfl
      simp only at ha
      omega
    | @natural b hb =>
      obtain ⟨h1, h2⟩ := ht b (Array.mem_of_getElem? hb)
      exact ⟨base, length, b, rfl, resolve_eq_ok_iff.mpr hb, (roundUp_eq_zero_iff h2.le h1).mp ha⟩
  | struct he =>
    obtain ⟨_, h2⟩ := he.le ht (fun m hm => StructMember.Formed.nonNegative (h.1 m hm)) le_rfl
    simp only at ha
    omega
  | _ => simp at ha

lemma Constant.Plain.of_not_integer {v : Constant} (h : Constant.Plain v) (hn : ∀ n, ¬ Integer v.value n) :
    ∃ width, (∃ x, v.value = .scalar width (.float x)) ∨ ∃ b, v.value = .scalar width (.bool b) := by
  obtain ⟨width, value, hv, _⟩ := h
  rw [hv] at hn
  refine ⟨width, ?_⟩
  cases value with
  | sint n => exact (hn n (.sint width n)).elim
  | uint n => exact (hn n (.uint width n)).elim
  | float x => exact .inl ⟨x, hv⟩
  | bool b => exact .inr ⟨b, hv⟩

/-- The errors that the layouts of a well-formed table can still end with. -/
inductive Residual (t : Table) (layouts : Layouts) (k : Nat) (type : GpuType) : LayoutError → Prop
  | lengthNotInteger {base c : Handle} {stride : Option Int} {v : Constant} {width : Int}
      (hs : type.shape = .array base (.constant c) stride) (hc : t.constants.get? c = some v)
      (hv : (∃ x, v.value = .scalar width (.float x)) ∨ ∃ b, v.value = .scalar width (.bool b)) :
      Residual t layouts k type (.lengthNotInteger ⟨k⟩ c v.value)
  | zeroAlignment {base : Handle} {length : ArrayLength} {l : Layout}
      (hs : type.shape = .array base length none) (hl : layouts.resolve base = .ok l) (hz : l.size = 0) :
      Residual t layouts k type (.zeroAlignment ⟨k⟩ type.shape.tag)
  | sizeOverflow {size : Int} (hs : 2 ^ 32 - 1 < size) :
      Residual t layouts k type (.sizeOverflow ⟨k⟩ type.shape.tag size)

lemma Table.WellFormed.residual {t : Table} (hw : t.WellFormed) {layouts : Layouts} {k : Nat} {type : GpuType}
    {e : LayoutError} (hp : Prefix t.types t.constants k layouts) (ht : t.types.get? ⟨k⟩ = some type)
    (he : Refuses layouts t.constants ⟨k⟩ type e) : Residual t layouts k type e := by
  have hf := hw.shapes k type ht
  have hsized := hp.sized fun i type hi => Shape.Formed.nonNegative (hw.shapes i type hi)
  have hk := hp.size_eq
  cases he with
  | zeroAlignment hl ha =>
    obtain ⟨base, length, b, hs, hb, hz⟩ := Shape.Formed.of_alignment_eq_zero hf hl hsized ha
    exact .zeroAlignment hs hb hz
  | sizeOverflow hl ha hs => exact .sizeOverflow hs
  | raised he =>
    generalize hs : type.shape = s at he hf
    cases he with
    | lengthMissing hc =>
      have hlt := hf.2.1 _ rfl
      exact (Nat.not_lt.mpr (Array.getElem?_eq_none_iff.mp hc) hlt).elim
    | lengthNotInteger hv hn =>
      obtain ⟨width, hx⟩ := Constant.Plain.of_not_integer (hw.constants _ _ hv) hn
      exact .lengthNotInteger hs hv hx
    | elementMissing hn hb =>
      have := hf.1
      omega
    | memberMissing hb hm =>
      have := (hf.1 _ (List.mem_append_right _ List.mem_cons_self)).1
      omega

/-- Tables are well formed after any number of items, names keep their meaning, and of an accepted
description only three kinds of errors reach the layouts. -/
theorem tables_wellFormed :
    (∀ (is : List Item) (n : Nat), (build (is.take n)).table.WellFormed) ∧
    (∀ (is : List Item) (m n : Nat) (name : String), m ≤ n →
      (∀ h, (build (is.take m)).table.typeNames.lookup name = some h →
        (build (is.take n)).table.typeNames.lookup name = some h) ∧
      ∀ h, (build (is.take m)).table.constantNames.lookup name = some h →
        (build (is.take n)).table.constantNames.lookup name = some h) ∧
    ∀ (source : String) (t : Table), (read source).accepted? = some t →
      ∀ f : Failure, Layout.table t.types t.constants = .error f →
        ∃ k layouts type e, FailsAt t.types t.constants k layouts e ∧ t.types.get? ⟨k⟩ = some type ∧
          Residual t layouts k type e ∧ f = surfaced e := by
  refine ⟨fun is n => build_wellFormed _, fun is m n name hmn => ?_, fun source t ht f hf => ?_⟩
  · obtain ⟨k, rfl⟩ := Nat.exists_eq_add_of_le hmn
    have he := build_extends (is.take m) ((is.drop m).take k)
    rw [← List.take_add] at he
    exact ⟨fun h hh => he.typeNames.lookup_eq_some hh, fun h hh => he.constantNames.lookup_eq_some hh⟩
  · obtain ⟨is, _, rfl, _⟩ := read_accepted ht
    have hw := build_wellFormed is
    obtain ⟨layouts, hfill, _⟩ | ⟨layouts, e, hfill, hfails⟩ :=
      fill_ends (build is).table.types (build is).table.constants
    · rw [Layout.table, hfill] at hf
      cases hf
    · rw [Layout.table, hfill] at hf
      cases hf
      obtain ⟨type, htype, he⟩ := hfails.refuses
      exact ⟨_, layouts, type, e, hfails, htype, hw.residual hfails.earlier htype he, ofError_eq_surfaced e⟩

theorem tables_wellFormed_floatLength : ∃ t k layouts type e,
    (read "const N = 1.5; type A = array<u32, N>;").accepted? = some t ∧ Residual t layouts k type e ∧
      Layout.table t.types t.constants = .error (Layout.surfaced e) := by
  have hfails : ((read "const N = 1.5; type A = array<u32, N>;").accepted?.any fun t =>
      (Layout.table t.types t.constants).toOption.isNone) = true := by decide +kernel
  cases ht : (read "const N = 1.5; type A = array<u32, N>;").accepted? with
  | none =>
    rw [ht] at hfails
    cases hfails
  | some t =>
    rw [ht] at hfails
    cases hf : Layout.table t.types t.constants with
    | ok layouts =>
      rw [Option.any_some, hf] at hfails
      cases hfails
    | error f =>
      obtain ⟨k, layouts, type, e, _, _, he, rfl⟩ := tables_wellFormed.2.2 _ t ht f hf
      exact ⟨t, k, layouts, type, e, rfl, he, hf⟩

end Layouts

end ShaderLayout.Description
