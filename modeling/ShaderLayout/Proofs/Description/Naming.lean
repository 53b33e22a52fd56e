import ShaderLayout.Proofs.Description.Tables

namespace ShaderLayout.Description

inductive ItemKind
  | constant
  | type
  deriving DecidableEq

def Item.kind : Item → ItemKind
  | .constant .. => .constant
  | .type .. => .type

def Item.MakesType : Item → Prop
  | .constant .. => False
  | .type _ _ (.mk _ _ (.named _)) => False
  | .type .. => True

instance : DecidablePred Item.MakesType
  | .constant .. => isFalse id
  | .type _ _ (.mk _ _ (.named _)) => isFalse id
  | .type _ _ (.mk _ _ (.vector ..)) | .type _ _ (.mk _ _ (.matrix ..)) | .type _ _ (.mk _ _ (.pointer _))
  | .type _ _ (.mk _ _ (.valuePointer _)) | .type _ _ (.mk _ _ (.array ..)) | .type _ _ (.mk _ _ (.struct _))
  | .type _ _ (.mk _ _ (.image ..)) | .type _ _ (.mk _ _ (.sampler _)) => isTrue trivial

def Table.names (t : Table) : ItemKind → List (String × Handle)
  | .constant => t.constantNames
  | .type => t.typeNames

def Named (name : String) (h : Handle) (t : Table) : Prop :=
  ∃ type, t.types.get? h = some type ∧ type.name = some name

structure Enters (i : Item) (s s' : Progress) : Prop where
  erred : Erred s s' → s'.table.names = s.table.names
  entered : ¬ Erred s s' → Fresh i.name.text s.table ∧ ∃ h,
    s'.table.names i.kind = s.table.names i.kind ++ [(i.name.text, h)] ∧
      (∀ kind ≠ i.kind, s'.table.names kind = s.table.names kind) ∧
      (i.MakesType → Named i.name.text h s'.table)

section Types

variable {s : Progress}

lemma placing_named (m : Build (Option Shape)) (name : String) :
    Ends (Build.placing (some name) m) s fun r s' => ∀ h ∈ r, Named name h s'.table := by
  refine Ends.bind (P := fun _ _ => True) trivial fun r s' _ => ?_
  cases r with
  | none => exact Ends.pure (by simp)
  | some shape =>
    refine Ends.bind (P := fun h s'' => Named name h s''.table) ?_ fun h s'' hn => Ends.pure (by simpa using hn)
    exact ⟨⟨shape, some name⟩, Arena.get?_append_next .., rfl⟩

lemma typeExpr_named {region : Region} {name : Token} {expr : TypeExpr}
    (hm : (Item.type region name expr).MakesType) : Ends (Build.typeExpr expr (some name.text)) s fun r s' =>
      ∀ h ∈ r, Named name.text h s'.table := by
  obtain ⟨as, region, b⟩ := expr
  rw [Build.typeExpr]
  refine Ends.bind (P := fun _ _ => True) trivial fun r s' _ => ?_
  cases r with
  | none => exact Ends.pure (by simp)
  | some accepted =>
    cases b with
    | named n => exact hm.elim
    | _ =>
      simp only [Build.body]
      exact placing_named _ name.text

end Types

section Items

variable {s s' s'' : Progress}

lemma Adds.names (h : Adds s s') : s'.table.names = s.table.names := by
  funext kind
  cases kind with
  | constant => exact h.constantNames
  | type => exact h.typeNames

lemma erred_congr (h : s''.findings = s'.findings) : Erred s s'' ↔ Erred s s' := by
  simp [Erred, h]

lemma Enters.of_erred {i : Item} (ha : Adds s s') (he : Erred s s') : Enters i s s' :=
  ⟨fun _ => ha.names, fun hn => absurd he hn⟩

lemma item_enters (hw : s.table.WellFormed) (i : Item) : Ends (Build.item i) s fun _ s' => Enters i s s' := by
  cases i with
  | constant region name value =>
    refine (literal_answer hw value).bind fun r s₁ h => ?_
    cases r with
    | none => exact Ends.pure (.of_erred h.adds (h.none_iff.1 rfl))
    | some v =>
      refine (checkFresh_ends s₁ name).bind fun b s₂ hb => ?_
      obtain ⟨ht, ha, hf, he⟩ := hb
      have hadds := h.adds.trans ha
      have hnone : ¬ Erred s s₁ := by simp [← h.none_iff]
      cases b with
      | false => exact Ends.pure (.of_erred hadds ((h.adds.erred_iff ha).2 (.inr (he.1 rfl))))
      | true =>
        have hn : ¬ Erred s s₂ := by simp [h.adds.erred_iff ha, hnone, ← he]
        have hfresh : Fresh name.text s.table := by
          obtain ⟨h1, h2, h3⟩ := hf rfl
          exact ⟨h.adds.typeNames ▸ h1, h.adds.constantNames ▸ h2, h3⟩
        refine ⟨fun hc => absurd ((erred_congr rfl).1 hc) hn, fun _ =>
          ⟨hfresh, s₂.table.constants.next, ?_, ?_, False.elim⟩⟩
        · exact congrArg (· ++ [(name.text, s₂.table.constants.next)]) hadds.constantNames
        · rintro (_ | _) hk
          · exact absurd rfl hk
          · exact hadds.typeNames
  | type region name expr =>
    refine (checkFresh_ends s name).bind fun b s₁ hb => ?_
    obtain ⟨ht, ha, hf, he⟩ := hb
    cases b with
    | false => exact Ends.pure (.of_erred ha (he.1 rfl))
    | true =>
      have hnone : ¬ Erred s s₁ := by simp [← he]
      have hnamed : Ends (Build.typeExpr expr (some name.text)) s₁ fun r s' =>
          (Item.type region name expr).MakesType → ∀ h ∈ r, Named name.text h s'.table := fun hm => typeExpr_named hm
      refine ((typeExpr_answer expr (some name.text) (ht ▸ hw)).and hnamed).bind fun r s₂ h => ?_
      obtain ⟨h, hnamed⟩ := h
      have hadds := ha.trans h.adds
      cases r with
      | none => exact Ends.pure (.of_erred hadds ((ha.erred_iff h.adds).2 (.inr (h.none_iff.1 rfl))))
      | some k =>
        have hn : ¬ Erred s s₂ := by simp [ha.erred_iff h.adds, hnone, ← h.none_iff]
        refine ⟨fun hc => absurd ((erred_congr rfl).1 hc) hn, fun _ =>
          ⟨hf rfl, k, ?_, ?_, fun hm => hnamed hm k rfl⟩⟩
        · exact congrArg (· ++ [(name.text, k)]) hadds.typeNames
        · rintro (_ | _) hk
          · exact hadds.constantNames
          · exact absurd rfl hk

lemma build_enters {is : List Item} {n : Nat} {i : Item} (hi : is[n]? = some i) :
    Enters i (build (is.take n)) (build (is.take (n + 1))) := by
  rw [List.take_add_one, hi, Option.toList_some, build_append]
  exact item_enters (build_wellFormed _) i

lemma build_nil : build [] = .initial := rfl

def InOrder (is : List Item) (n : Nat) : Prop := ¬ Erred (build (is.take n)) (build (is.take (n + 1)))

lemma build_names_succ {is : List Item} {n : Nat} {i : Item} (hi : is[n]? = some i) (kind : ItemKind)
    (name : String) : name ∈ ((build (is.take (n + 1))).table.names kind).map Prod.fst ↔
      name ∈ ((build (is.take n)).table.names kind).map Prod.fst ∨
        i.kind = kind ∧ i.name.text = name ∧ InOrder is n := by
  have henters := build_enters hi
  by_cases he : Erred (build (is.take n)) (build (is.take (n + 1)))
  · simp [henters.erred he, InOrder, he]
  · obtain ⟨-, h, hown, hother, -⟩ := henters.entered he
    by_cases hk : i.kind = kind
    · subst hk
      simp only [hown, List.map_append, List.map_cons, List.map_nil, List.mem_append, List.mem_singleton,
        InOrder, he, not_false_eq_true, and_true, true_and, eq_comm]
    · simp [hother kind (Ne.symm hk), hk]

lemma build_names (is : List Item) (kind : ItemKind) (name : String) :
    name ∈ ((build is).table.names kind).map Prod.fst ↔
      ∃ n i, is[n]? = some i ∧ i.kind = kind ∧ i.name.text = name ∧ InOrder is n := by
  have upTo : ∀ m ≤ is.length, name ∈ ((build (is.take m)).table.names kind).map Prod.fst ↔
      ∃ n < m, ∃ i, is[n]? = some i ∧ i.kind = kind ∧ i.name.text = name ∧ InOrder is n := by
    intro m hm
    induction m with
    | zero =>
      rw [List.take_zero]
      cases kind <;> simp [build_nil, Progress.initial, Table.empty, Table.names]
    | succ m ih =>
      have hi := List.getElem?_eq_getElem (Nat.lt_of_succ_le hm)
      rw [build_names_succ hi, ih (Nat.le_of_succ_le hm), Nat.exists_lt_succ_right, hi]
      simp
  have hall := upTo is.length le_rfl
  rw [List.take_length] at hall
  rw [hall]
  refine exists_congr fun n => ⟨And.right, fun h => ⟨?_, h⟩⟩
  obtain ⟨i, hi, -⟩ := h
  exact (List.getElem?_eq_some_iff.1 hi).1

lemma build_inOrder {is : List Item} (hq : ∀ f ∈ (build is).findings, f.problem.isError = false) (n : Nat) :
    InOrder is n := by
  intro he
  obtain ⟨f, hf, hfe⟩ := he.mem
  have hext := build_extends (is.take (n + 1)) (is.drop (n + 1))
  rw [List.take_append_drop] at hext
  rw [hq f (hext.findings.subset hf)] at hfe
  cases hfe

lemma Extends.names {s s' : Progress} (h : Extends s s') (kind : ItemKind) :
    s.table.names kind <+: s'.table.names kind := by
  cases kind with
  | constant => exact h.constantNames
  | type => exact h.typeNames

lemma build_defines {is : List Item} (hq : ∀ f ∈ (build is).findings, f.problem.isError = false) {i : Item}
    (hi : i ∈ is) : ∃ h, ((build is).table.names i.kind).lookup i.name.text = some h ∧
      (i.MakesType → Named i.name.text h (build is).table) := by
  obtain ⟨n, hn⟩ := List.mem_iff_getElem?.1 hi
  obtain ⟨hfresh, h, hown, -, hnamed⟩ := (build_enters hn).entered (build_inOrder hq n)
  have hext := build_extends (is.take (n + 1)) (is.drop (n + 1))
  rw [List.take_append_drop] at hext
  refine ⟨h, (hext.names i.kind).lookup_eq_some ?_, fun hm => ?_⟩
  · have hnone : ((build (is.take n)).table.names i.kind).lookup i.name.text = none := by
      cases i.kind with
      | constant => exact hfresh.constantNames
      | type => exact hfresh.typeNames
    simp [hown, List.lookup_append, hnone]
  · obtain ⟨type, ht, hname⟩ := hnamed hm
    exact ⟨type, Arena.get?_mono hext.types ht, hname⟩

end Items

section Reports

lemma addTo_foldl (fs : List Finding) (r : Report) :
    (fs.foldl Finding.addTo r).items = r.items ++ fs.map fun f =>
      ⟨.ofSeverity f.problem.message.severity, f.problem.message.code, f.problem.message.fill f.problem.arguments,
        some f.region.span, some r.filename⟩ := by
  induction fs generalizing r with
  | nil => simp
  | cons f fs ih =>
    rw [List.foldl_cons, ih]
    simp [Finding.addTo, Report.emit, Report.add]

lemma mem_report {r : Reading} {source : Option String} {filename : String} {d : Diagnostic}
    (hd : d ∈ (r.report (.empty source filename)).items) :
    ∃ f ∈ r.findings, d.kind = .ofSeverity f.problem.message.severity ∧ d.span = some f.region.span := by
  rw [Reading.report, addTo_foldl] at hd
  obtain ⟨f, hf, rfl⟩ := List.mem_map.1 hd
  exact ⟨f, hf, rfl, rfl⟩

lemma report_hasErrors (r : Reading) (source : Option String) (filename : String) :
    (r.report (.empty source filename)).hasErrors = r.hasErrors := by
  have hkind : ∀ s : Severity, (Kind.ofSeverity s = .error) ↔ s = .error := by
    intro s
    cases s <;> simp [Kind.ofSeverity]
  simp [Reading.report, Report.hasErrors, addTo_foldl, Reading.hasErrors, Report.empty, List.any_map,
    Function.comp_def, hkind, Problem.isError]

/-- Every reading of a source, with what is reported for it. -/
theorem read_reports (source filename : String) :
    let report := (read source).report (.empty (some source) filename)
    ((read source).accepted? = none ↔ report.hasErrors = true) ∧
    (∀ f ∈ (read source).findings, f.problem.message.missing? f.problem.arguments = none) ∧
    (∀ fault, parse source = .error fault →
      (read source).table? = none ∧ report.codes = ["CE1001"] ∧ report.hasErrors = true) ∧
    ∀ is, parse source = .ok is →
      read source = ⟨some (build is).table, (build is).findings⟩ ∧
      (∀ n i, is[n]? = some i → Enters i (build (is.take n)) (build (is.take (n + 1)))) ∧
      (∀ kind name, name ∈ ((build is).table.names kind).map Prod.fst ↔
        ∃ n i, is[n]? = some i ∧ i.kind = kind ∧ i.name.text = name ∧ InOrder is n) ∧
      ∀ t, (read source).accepted? = some t → ∀ i ∈ is,
        ∃ h, (t.names i.kind).lookup i.name.text = some h ∧ (i.MakesType → Named i.name.text h t) := by
  intro report
  have herrors : report.hasErrors = (read source).hasErrors := report_hasErrors ..
  have hfault : ∀ fault, parse source = .error fault →
      read source = ⟨none, [⟨.malformed fault.text, ⟨fault.position, fault.position⟩⟩]⟩ := by
    intro fault hf
    rw [read, hf]
  have hbuilt : ∀ is, parse source = .ok is → read source = ⟨some (build is).table, (build is).findings⟩ := by
    intro is his
    rw [read, his]
  refine ⟨?_, fun f _ => f.problem.missing?_arguments, fun fault hf => ⟨?_, ?_, ?_⟩, fun is his =>
    ⟨hbuilt is his, fun n i hi => build_enters hi, build_names is, fun t ht i hi => ?_⟩⟩
  · rw [herrors, Reading.accepted?]
    cases hp : parse source with
    | error fault =>
      rw [hfault fault hp]
      exact iff_of_true rfl rfl
    | ok is =>
      rw [hbuilt is hp]
      simp
  · rw [hfault fault hf]
  · simp only [report, hfault fault hf]
    rfl
  · rw [herrors, hfault fault hf]
    rfl
  · obtain ⟨is', his', rfl, hq⟩ := read_accepted ht
    obtain rfl := Except.ok.inj (his.symm.trans his')
    exact build_defines hq hi

theorem read_reports_struct :
    ((read "type S = struct [;").report (.empty (some "type S = struct [;") "s")).codes = ["CE1001"] ∧
      ∃ t h, (read "type S = struct { a: f32 };").accepted? = some t ∧ t.typeNames.lookup "S" = some h ∧
        Named "S" h t := by
  constructor
  · have hp : (parse "type S = struct [;").isOk = false := by decide +kernel
    cases hf : parse "type S = struct [;" with
    | ok is => rw [hf] at hp; cases hp
    | error fault => exact ((read_reports "type S = struct [;" "s").2.2.1 fault hf).2.1
  · have haccepted : (read "type S = struct { a: f32 };").accepted?.isSome = true := by decide +kernel
    have hp : ((parse "type S = struct { a: f32 };").toOption.any fun is =>
        is.any fun i => decide (i.name.text = "S" ∧ i.kind = .type ∧ i.MakesType)) = true := by decide +kernel
    obtain ⟨t, ht⟩ := Option.isSome_iff_exists.1 haccepted
    cases his : parse "type S = struct { a: f32 };" with
    | error fault => rw [his] at hp; cases hp
    | ok is =>
      rw [his, Except.toOption, Option.any_some, List.any_eq_true] at hp
      obtain ⟨i, hi, hp⟩ := hp
      obtain ⟨hname, hkind, hmakes⟩ := of_decide_eq_true hp
      obtain ⟨h, hh, hn⟩ := ((read_reports _ "s").2.2.2 _ his).2.2.2 t ht i hi
      rw [hname, hkind] at hh
      rw [hname] at hn
      exact ⟨t, h, ht, hh, hn hmakes⟩

end Reports

end ShaderLayout.Description
