import ShaderLayout.Proofs.Arena
import ShaderLayout.Proofs.Description.Naming
import ShaderLayout.Proofs.Number.Numeral

/-!
How a table changes while a description is built. Inside a type expression only findings and unnamed entries are added,
the latter when no equal entry is there; an item also makes a named entry or enters a name. What holds of every table is
shown for one change.
-/

namespace ShaderLayout

open Number

namespace Shape

def givenAlignments : Shape → List Int
  | .array _ _ stride => stride.toList
  | .struct members => members.filterMap StructMember.align
  | _ => []

def AlignmentsWritable (s : Shape) : Prop := ∀ a ∈ s.givenAlignments, Numeral.Writable a

lemma alignmentsWritable_of_nil {s : Shape} (h : s.givenAlignments = []) : s.AlignmentsWritable := by
  simp [AlignmentsWritable, h]

end Shape

namespace Description

namespace Progress

variable (s : Progress)

def addFindings (fs : List Finding) : Progress := { s with findings := s.findings ++ fs }

def addType (type : GpuType) : Progress := { s with table := { s.table with types := s.table.types.append type } }

def addConstant (c : Constant) : Progress :=
  { s with table := { s.table with constants := s.table.constants.append c } }

def nameType (name : String) (h : Handle) : Progress :=
  { s with table := { s.table with typeNames := s.table.typeNames ++ [(name, h)] } }

def nameConstant (name : String) (h : Handle) : Progress :=
  { s with table := { s.table with constantNames := s.table.constantNames ++ [(name, h)] } }

end Progress

inductive Addition (s : Progress) : Progress → Prop
  | findings (fs : List Finding) : Addition s (s.addFindings fs)
  | type {shape : Shape} (hw : shape.AlignmentsWritable) (hn : ∀ type ∈ s.table.types.toList, type ≠ ⟨shape, none⟩) :
      Addition s (s.addType ⟨shape, none⟩)
  | constant {value : ConstantValue} (hn : ∀ c ∈ s.table.constants.toList, (c == ⟨value, none⟩) = false) :
      Addition s (s.addConstant ⟨value, none⟩)

def Additions : Progress → Progress → Prop := Relation.ReflTransGen Addition

inductive Change (s : Progress) : Progress → Prop
  | addition {s' : Progress} (h : Addition s s') : Change s s'
  | type {name : String} {shape : Shape} (hf : Fresh name s.table) (hw : shape.AlignmentsWritable) :
      Change s ((s.addType ⟨shape, some name⟩).nameType name s.table.types.next)
  | reference {name : String} (hf : Fresh name s.table) (h : Handle) : Change s (s.nameType name h)
  | constant {name : String} (hf : Fresh name s.table) (value : ConstantValue) :
      Change s ((s.addConstant ⟨value, some name⟩).nameConstant name s.table.constants.next)

def Changes : Progress → Progress → Prop := Relation.ReflTransGen Change

section Changes

variable {s s' s'' : Progress}

lemma Addition.adds (h : Addition s s') : Adds s s' := by
  cases h with
  | findings fs => exact adds_findings s fs
  | type => exact adds_type s _
  | constant => exact adds_constant s _

lemma Additions.adds (h : Additions s s') : Adds s s' := by
  induction h with
  | refl => exact .refl s
  | tail _ h ih => exact ih.trans h.adds

lemma Additions.trans (h : Additions s s') (h' : Additions s' s'') : Additions s s'' := Relation.ReflTransGen.trans h h'

lemma Additions.changes (h : Additions s s') : Changes s s' := by
  induction h with
  | refl => exact .refl
  | tail _ h ih => exact ih.tail (.addition h)

lemma Change.extends (h : Change s s') : Extends s s' := by
  cases h with
  | addition h => exact h.adds.extends
  | type => exact ⟨prefix_append .., List.prefix_rfl, List.prefix_append .., List.prefix_rfl, List.prefix_rfl⟩
  | reference => exact ⟨List.prefix_rfl, List.prefix_rfl, List.prefix_append .., List.prefix_rfl, List.prefix_rfl⟩
  | constant => exact ⟨List.prefix_rfl, prefix_append .., List.prefix_rfl, List.prefix_append .., List.prefix_rfl⟩

lemma Changes.extends (h : Changes s s') : Extends s s' := by
  induction h with
  | refl => exact .refl s
  | tail _ h ih => exact ih.trans h.extends

end Changes

def Gives {α : Type} (m : Build α) (Q : α → Prop) : Prop := ∀ s, Ends m s fun a s' => Additions s s' ∧ Q a

def Gives? {α : Type} (m : Build (Option α)) (Q : α → Prop) : Prop := Gives m fun r => ∀ a ∈ r, Q a

namespace Gives

variable {α β : Type} {m : Build α} {P : α → Prop} {Q : β → Prop}

lemma pure {a : α} (h : P a) : Gives (Pure.pure a) P := fun _ => Ends.pure ⟨.refl, h⟩

lemma bind {f : α → Build β} (hm : Gives m P) (hf : ∀ a, P a → Gives (f a) Q) : Gives (m >>= f) Q :=
  fun s => (hm s).bind fun a s' h => (hf a h.2 s').mono fun _ _ h' => ⟨h.1.trans h'.1, h'.2⟩

lemma getTable {f : Table → Build β} (h : ∀ t, Gives (f t) Q) : Gives (Build.getTable >>= f) Q :=
  fun s => Ends.getTable (h s.table s)

lemma none : Gives? (Pure.pure none) P := Gives.pure (by simp)

lemma some {a : α} (h : P a) : Gives? (Pure.pure (some a)) P := Gives.pure (by simpa using h)

lemma report (p : Problem) (r : Region) : Gives (Build.report p r) fun _ => True :=
  fun _ => ⟨.single (.findings [⟨p, r⟩]), trivial⟩

lemma fail (p : Problem) (r : Region) : Gives? (Build.fail p r) P := (report p r).bind fun _ _ => none

end Gives

lemma shareType_gives {shape : Shape} (hw : shape.AlignmentsWritable) :
    Gives (Build.shareType shape) fun _ => True := by
  intro s
  let p := s.table.types.fetchOrAppend ⟨shape, none⟩
  change Additions s { s with table := { s.table with types := p.2 } } ∧ True
  cases hf : s.table.types.find? ⟨shape, none⟩ with
  | some h =>
    rw [show p = (h, s.table.types) from Arena.fetchOrAppend_of_find? hf]
    exact ⟨.refl, trivial⟩
  | none =>
    rw [show p = _ from Arena.fetchOrAppend_of_find?_eq_none hf]
    refine ⟨.single (.type hw fun type ht => ?_), trivial⟩
    exact ne_of_beq_false (Arena.find?_eq_none_iff.1 hf type ht)

lemma shareConstant_gives (value : ConstantValue) : Gives (Build.shareConstant value) fun _ => True := by
  intro s
  let p := s.table.constants.fetchOrAppend ⟨value, none⟩
  change Additions s { s with table := { s.table with constants := p.2 } } ∧ True
  cases hf : s.table.constants.find? ⟨value, none⟩ with
  | some h =>
    rw [show p = (h, s.table.constants) from Arena.fetchOrAppend_of_find? hf]
    exact ⟨.refl, trivial⟩
  | none =>
    rw [show p = _ from Arena.fetchOrAppend_of_find?_eq_none hf]
    exact ⟨.single (.constant (Arena.find?_eq_none_iff.1 hf)), trivial⟩

lemma placing_gives {m : Build (Option Shape)} (hm : Gives? m Shape.AlignmentsWritable) :
    Gives (Build.placing none m) fun _ => True := by
  refine hm.bind fun r hr => ?_
  cases r with
  | none => exact Gives.pure trivial
  | some s => exact (shareType_gives (hr s rfl)).bind fun _ _ => Gives.pure trivial

section Leaf

lemma resolveType_gives (name : Token) : Gives (Build.resolveType name) fun _ => True := by
  refine Gives.getTable fun t => ?_
  split
  · exact Gives.pure trivial
  · exact (shareType_gives (Shape.alignmentsWritable_of_nil rfl)).bind fun _ _ => Gives.pure trivial
  · split
    · exact (Gives.report _ _).bind fun _ _ => Gives.pure trivial
    · exact (Gives.report _ _).bind fun _ _ => Gives.pure trivial

lemma component_gives (name : Token) : Gives? (Build.component name) fun _ => True := by
  refine (resolveType_gives name).bind fun r _ => ?_
  cases r with
  | none => exact Gives.none
  | some h =>
    refine Gives.getTable fun t => ?_
    split
    · exact Gives.some trivial
    · exact Gives.fail _ _

lemma vectorSize_gives (what : String) (t : Token) : Gives? (Build.vectorSize what t) fun _ => True := by
  rw [Build.vectorSize]
  split
  · exact Gives.some trivial
  · exact Gives.fail _ _

lemma vector_gives (size name : Token) : Gives? (Build.vector size name) Shape.AlignmentsWritable := by
  refine (vectorSize_gives _ size).bind fun n _ => ?_
  refine (component_gives name).bind fun c _ => ?_
  cases n <;> cases c
  case some.some => exact Gives.some (Shape.alignmentsWritable_of_nil rfl)
  all_goals exact Gives.none

lemma matrix_gives (columns rows name : Token) : Gives? (Build.matrix columns rows name) Shape.AlignmentsWritable := by
  refine (vectorSize_gives _ columns).bind fun c _ => ?_
  refine (vectorSize_gives _ rows).bind fun r _ => ?_
  refine (component_gives name).bind fun k _ => ?_
  cases k with
  | none => exact Gives.none
  | some k =>
    simp only
    split
    · cases c <;> cases r
      case some.some => exact Gives.some (Shape.alignmentsWritable_of_nil rfl)
      all_goals exact Gives.none
    · exact Gives.fail _ _

lemma valuePointer_gives (region : Region) (h : Option Handle) :
    Gives? (Build.valuePointer region h) Shape.AlignmentsWritable := by
  cases h with
  | none => exact Gives.none
  | some h =>
    refine Gives.getTable fun t => ?_
    split
    · exact Gives.some (Shape.alignmentsWritable_of_nil rfl)
    · exact Gives.some (Shape.alignmentsWritable_of_nil rfl)
    · exact Gives.fail _ _
    · exact Gives.none

lemma arrayLength_gives (length : Option Token) : Gives? (Build.arrayLength length) fun _ => True := by
  rw [Build.arrayLength.eq_def]
  split
  · exact Gives.some trivial
  · split
    · refine Gives.getTable fun t => ?_
      split
      · exact Gives.some trivial
      · split
        · exact Gives.fail _ _
        · exact Gives.fail _ _
    · split
      · exact Gives.fail _ _
      · exact (shareConstant_gives _).bind fun _ _ => Gives.some trivial

lemma image_gives (dimension : Token) (flag : Option Token) :
    Gives? (Build.image dimension flag) Shape.AlignmentsWritable := by
  rw [Build.image.eq_def]
  split
  · exact Gives.fail _ _
  · exact Gives.some (Shape.alignmentsWritable_of_nil rfl)
  · split
    · exact Gives.some (Shape.alignmentsWritable_of_nil rfl)
    · exact Gives.fail _ _

lemma judgeAll_writable {allowed : List AttributeKind} {target : String} {accepted : Accepted}
    {as : List Attribute} (h : ∀ e ∈ accepted, Numeral.Writable e.2) :
    ∀ e ∈ (Attribute.judgeAll allowed target accepted as).1, Numeral.Writable e.2 := by
  induction as generalizing accepted with
  | nil => exact h
  | cons a rest ih =>
    rw [Attribute.judgeAll]
    cases hj : Attribute.judge allowed target accepted a with
    | error p => exact ih h
    | ok e =>
      refine ih fun e' he' => ?_
      rcases List.mem_append.mp he' with he' | he'
      · exact h e' he'
      · obtain ⟨_, _, hv⟩ := Attribute.judge_eq_ok hj
        obtain ⟨⟨n, suffix⟩, hn, he⟩ := Option.map_eq_some_iff.mp (Attribute.value?_eq_ok hv).1
        rw [List.mem_singleton.mp he', ← he]
        exact Numeral.literal?_writable hn

lemma attributes_gives (allowed : List AttributeKind) (target : String) (as : List Attribute) :
    Gives? (Build.attributes allowed target as) fun accepted => ∀ e ∈ accepted, Numeral.Writable e.2 := by
  intro s
  let fs := (Attribute.judgeAll allowed target [] as).2
  change Additions s (s.addFindings fs) ∧
    ∀ a ∈ if fs = [] then some (Attribute.judgeAll allowed target [] as).1 else none, _
  refine ⟨.single (.findings fs), fun a ha => ?_⟩
  split at ha
  · cases ha
    exact judgeAll_writable (by simp)
  · cases ha

end Leaf

section Syntax

def AlignWritable (m : StructMember) : Prop := ∀ a ∈ m.align, Numeral.Writable a

lemma lookup_writable {accepted : Accepted} (ha : ∀ e ∈ accepted, Numeral.Writable e.2) (kind : AttributeKind) :
    ∀ a ∈ accepted.lookup kind, Numeral.Writable a := by
  intro a hl
  obtain ⟨before, after, rfl, -⟩ := List.lookup_eq_some_iff.1 hl
  exact ha (kind, a) (by simp)

lemma struct_alignmentsWritable {ms : List StructMember} (h : ∀ m ∈ ms, AlignWritable m) :
    (Shape.struct ms).AlignmentsWritable := by
  intro a ha
  obtain ⟨m, hm, he⟩ := List.mem_filterMap.1 ha
  exact h m hm a he

lemma array_alignmentsWritable {stride : Option Int} (h : ∀ a ∈ stride, Numeral.Writable a) (base : Handle)
    (length : ArrayLength) : (Shape.array base length stride).AlignmentsWritable :=
  fun a ha => h a (Option.mem_toList.1 ha)

lemma member_gives (seen : List String) (as : List Attribute) (name : Token) {type : TypeExpr}
    (ht : Gives (Build.typeExpr type none) fun _ => True) :
    Gives? (Build.member seen (.mk as name type)) AlignWritable := by
  rw [Build.member]
  refine (attributes_gives _ _ as).bind fun accepted ha => ht.bind fun ty _ => ?_
  split
  · exact Gives.fail _ _
  · cases accepted <;> cases ty
    case some.some accepted h => exact Gives.some (lookup_writable (ha accepted rfl) .align)
    all_goals exact Gives.none

mutual

lemma typeExpr_gives (e : TypeExpr) : Gives (Build.typeExpr e none) fun _ => True := by
  obtain ⟨as, region, b⟩ := e
  rw [Build.typeExpr]
  refine (attributes_gives _ _ as).bind fun accepted ha => ?_
  cases accepted with
  | none => exact Gives.pure trivial
  | some accepted =>
    by_cases hb : ∃ n, b = .named n
    · obtain ⟨n, rfl⟩ := hb
      simp only [Build.body]
      exact resolveType_gives n
    · obtain ⟨m, hm⟩ := body_gives b (fun n hn => hb ⟨n, hn⟩) region (ha accepted rfl)
      simp only [(hm none).1]
      exact placing_gives (hm none).2
termination_by structural e

lemma body_gives (b : Body) (hb : ∀ n, b ≠ .named n) (region : Region) {accepted : Accepted}
    (ha : ∀ e ∈ accepted, Numeral.Writable e.2) : ∃ m : Option String → Build (Option Shape),
      ∀ name, Build.body region accepted name b = Build.placing name (m name) ∧
        Gives? (m name) Shape.AlignmentsWritable := by
  cases b with
  | named n => exact absurd rfl (hb n)
  | vector size c => exact ⟨_, fun name => ⟨by rw [Build.body], vector_gives size c⟩⟩
  | matrix columns rows c => exact ⟨_, fun name => ⟨by rw [Build.body], matrix_gives columns rows c⟩⟩
  | pointer target =>
    refine ⟨_, fun name => ⟨by rw [Build.body], (typeExpr_gives target).bind fun r _ => ?_⟩⟩
    cases r with
    | none => exact Gives.none
    | some h => exact Gives.some (Shape.alignmentsWritable_of_nil rfl)
  | valuePointer target =>
    exact ⟨_, fun name => ⟨by rw [Build.body], (typeExpr_gives target).bind fun r _ => valuePointer_gives _ r⟩⟩
  | array element length =>
    refine ⟨_, fun name => ⟨by rw [Build.body], (typeExpr_gives element).bind fun base _ => ?_⟩⟩
    refine (arrayLength_gives length).bind fun n _ => ?_
    cases base <;> cases n
    case some.some => exact Gives.some (array_alignmentsWritable (lookup_writable ha .stride) _ _)
    all_goals exact Gives.none
  | struct ms =>
    refine ⟨_, fun name => ⟨by rw [Build.body], (members_gives ms []).bind fun r hr => ?_⟩⟩
    cases r with
    | none => exact Gives.none
    | some sms =>
      have hw := struct_alignmentsWritable (hr sms rfl)
      cases sms with
      | nil => exact (Gives.report _ _).bind fun _ _ => Gives.some hw
      | cons m rest => exact Gives.some hw
  | image dimension flag => exact ⟨_, fun name => ⟨by rw [Build.body], image_gives dimension flag⟩⟩
  | sampler comparison =>
    exact ⟨_, fun name => ⟨by rw [Build.body], Gives.some (Shape.alignmentsWritable_of_nil rfl)⟩⟩
termination_by structural b

lemma members_gives (ms : List Member) (seen : List String) :
    Gives? (Build.members ms seen) fun sms => ∀ m ∈ sms, AlignWritable m := by
  match ms with
  | [] =>
    rw [Build.members]
    exact Gives.some (by simp)
  | .mk as name type :: rest =>
    rw [Build.members]
    refine (member_gives seen as name (typeExpr_gives type)).bind fun first hf => ?_
    refine (members_gives rest (name.text :: seen)).bind fun others ho => ?_
    cases first <;> cases others
    case some.some m ms => exact Gives.some (List.forall_mem_cons.2 ⟨hf m rfl, ho ms rfl⟩)
    all_goals exact Gives.none
termination_by structural ms

end

inductive Placed (name : String) (s : Progress) : Option Handle → Progress → Prop
  | failed {s' : Progress} (h : Additions s s') : Placed name s none s'
  | own {s' : Progress} {shape : Shape} (h : Additions s s') (hw : shape.AlignmentsWritable) :
      Placed name s (some s'.table.types.next) (s'.addType ⟨shape, some name⟩)

lemma typeExpr_placed {region : Region} {name : Token} {expr : TypeExpr}
    (hm : (Item.type region name expr).MakesType) (s : Progress) :
    Ends (Build.typeExpr expr (some name.text)) s (Placed name.text s) := by
  obtain ⟨as, region, b⟩ := expr
  have hb : ∀ n, b ≠ .named n := by
    rintro n rfl
    exact hm
  rw [Build.typeExpr]
  refine (attributes_gives _ _ as s).bind fun accepted s₁ h => ?_
  obtain ⟨h₁, ha⟩ := h
  cases accepted with
  | none => exact Ends.pure (.failed h₁)
  | some accepted =>
    obtain ⟨m, hm⟩ := body_gives b hb region (ha accepted rfl)
    simp only [(hm (some name.text)).1]
    refine ((hm (some name.text)).2 s₁).bind fun shape s₂ h => ?_
    obtain ⟨h₂, hw⟩ := h
    cases shape with
    | none => exact Ends.pure (.failed (h₁.trans h₂))
    | some shape => exact .own (h₁.trans h₂) (hw shape rfl)

lemma typeExpr_reference {region : Region} {name : Token} {expr : TypeExpr}
    (hm : ¬ (Item.type region name expr).MakesType) :
    Gives (Build.typeExpr expr (some name.text)) fun _ => True := by
  obtain ⟨as, region, b⟩ := expr
  rw [Build.typeExpr]
  refine (attributes_gives _ _ as).bind fun accepted ha => ?_
  cases accepted with
  | none => exact Gives.pure trivial
  | some accepted =>
    cases b with
    | named n =>
      simp only [Build.body]
      exact resolveType_gives n
    | _ => exact absurd trivial hm

end Syntax

section Items

lemma checkFresh_gives (name : Token) : Gives (Build.checkFresh name) fun _ => True := by
  refine Gives.getTable fun t => ?_
  split
  · exact (Gives.report _ _).bind fun _ _ => Gives.pure trivial
  · exact Gives.pure trivial

lemma literal_gives (value : Literal) : Gives (Build.literal value) fun _ => True := by
  cases value with
  | integer t =>
    simp only [Build.literal]
    split
    · exact (Gives.report _ _).bind fun _ _ => Gives.pure trivial
    · exact Gives.pure trivial
  | float t => exact Gives.getTable fun _ => Gives.pure trivial
  | boolean b r => exact Gives.pure trivial

lemma item_changes (i : Item) (s : Progress) : Ends (Build.item i) s fun _ s' => Changes s s' := by
  cases i with
  | constant region name value =>
    refine (literal_gives value s).bind fun r s₁ h₁ => ?_
    cases r with
    | none => exact Ends.pure h₁.1.changes
    | some v =>
      refine ((checkFresh_gives name s₁).and (checkFresh_ends s₁ name)).bind fun b s₂ h₂ => ?_
      obtain ⟨⟨hadded, -⟩, htable, -, hf, -⟩ := h₂
      have hchanges := (h₁.1.trans hadded).changes
      cases b with
      | false => exact Ends.pure hchanges
      | true => exact hchanges.tail (.constant (htable ▸ hf rfl) v)
  | type region name expr =>
    refine ((checkFresh_gives name s).and (checkFresh_ends s name)).bind fun b s₁ h₁ => ?_
    obtain ⟨⟨hadded, -⟩, htable, -, hf, -⟩ := h₁
    cases b with
    | false => exact Ends.pure hadded.changes
    | true =>
      have hf₁ : Fresh name.text s₁.table := htable ▸ hf rfl
      by_cases hm : (Item.type region name expr).MakesType
      · refine (typeExpr_placed hm s₁).bind fun r s₂ h₂ => ?_
        cases h₂ with
        | failed h => exact Ends.pure (hadded.trans h).changes
        | own h hw => exact (hadded.trans h).changes.tail (.type (hf₁.of_adds h.adds) hw)
      · refine (typeExpr_reference hm s₁).bind fun r s₂ h₂ => ?_
        have hchanges := (hadded.trans h₂.1).changes
        cases r with
        | none => exact Ends.pure hchanges
        | some k => exact hchanges.tail (.reference (hf₁.of_adds h₂.1.adds) k)

lemma items_changes (is : List Item) (s : Progress) : Ends (Build.items is) s fun _ s' => Changes s s' := by
  induction is generalizing s with
  | nil => exact Ends.pure .refl
  | cons i rest ih => exact (item_changes i s).bind fun _ s' h => (ih s').mono fun _ _ h' => h.trans h'

lemma build_changes (is : List Item) : Changes .initial (build is) := items_changes is .initial

lemma build_induction {P : Progress → Prop} (hi : P .initial) (hc : ∀ s s', Change s s' → P s → P s')
    (is : List Item) : P (build is) := by
  have h := build_changes is
  generalize build is = s at h
  induction h with
  | refl => exact hi
  | tail _ h ih => exact hc _ _ h ih

end Items

section Alignments

def Table.AlignmentsWritable (t : Table) : Prop :=
  ∀ h type, t.types.get? h = some type → type.shape.AlignmentsWritable

lemma Table.AlignmentsWritable.append {t : Table} (h : t.AlignmentsWritable) {type : GpuType}
    (hw : type.shape.AlignmentsWritable) : { t with types := t.types.append type }.AlignmentsWritable := by
  intro k type' hk
  rcases Arena.get?_append_cases hk with hk | ⟨-, rfl⟩
  · exact h k type' hk
  · exact hw

lemma build_alignmentsWritable (is : List Item) : (build is).table.AlignmentsWritable := by
  refine build_induction (P := fun s => s.table.AlignmentsWritable) ?_ (fun s s' hc h => ?_) is
  · simp [Progress.initial, Table.empty, Table.AlignmentsWritable, Arena.empty, Arena.get?]
  · cases hc with
    | addition ha =>
      cases ha with
      | type hw => exact h.append hw
      | findings | constant => exact h
    | type _ hw => exact h.append hw
    | reference | constant => exact h

end Alignments

end Description

end ShaderLayout
