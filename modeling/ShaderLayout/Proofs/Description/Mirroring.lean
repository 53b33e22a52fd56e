import ShaderLayout.Proofs.Description.Erasing
import ShaderLayout.Proofs.Description.Run
import ShaderLayout.Proofs.Description.Spans

/-!
Building from erased syntax. Places are only copied into findings, and each step copies those of the tree that it looks
at; so the same table comes out without them, and the same problems are found in the same order.
-/

namespace ShaderLayout.Description

open Grammar (Marks)

def Finding.erase (f : Finding) : Finding := ⟨f.problem, nowhere⟩

def Progress.erase (s : Progress) : Progress := ⟨s.table, s.findings.map Finding.erase⟩

/-- Whatever `m` finds, it finds at a region in `R`; and `m'` gives, from erased findings, what `m` gives, and finds the
same but for the places. -/
def Mirrors {α : Type} (R : Region → Prop) (m m' : Build α) : Prop :=
  ∀ s, (∀ f ∈ s.findings, R f.region) →
    (∀ f ∈ (m.run s).2.findings, R f.region) ∧ m'.run s.erase = ((m.run s).1, (m.run s).2.erase)

namespace Mirrors

variable {α β : Type} {R : Region → Prop} {m m' : Build α}

lemma pure (a : α) : Mirrors R (Pure.pure a) (Pure.pure a) := fun _ hs => ⟨hs, rfl⟩

lemma bind {f f' : α → Build β} (hm : Mirrors R m m') (hf : ∀ a, Mirrors R (f a) (f' a)) :
    Mirrors R (m >>= f) (m' >>= f') := by
  intro s hs
  obtain ⟨hs', hrun⟩ := hm s hs
  obtain ⟨hs'', hrest⟩ := hf _ _ hs'
  refine ⟨hs'', ?_⟩
  rw [StateT.run_bind, hrun]
  exact hrest

lemma ite {c : Prop} [Decidable c] {n n' : Build α} (hm : Mirrors R m m') (hn : Mirrors R n n') :
    Mirrors R (if c then m else n) (if c then m' else n') := by
  by_cases h : c
  · rwa [if_pos h, if_pos h]
  · rwa [if_neg h, if_neg h]

lemma getTable : Mirrors R Build.getTable Build.getTable := fun _ hs => ⟨hs, rfl⟩

lemma setTable (t : Table) : Mirrors R (Build.setTable t) (Build.setTable t) := fun _ hs => ⟨hs, rfl⟩

lemma findings {fs : List Finding} (h : ∀ f ∈ fs, R f.region) :
    Mirrors R (modify fun s => { s with findings := s.findings ++ fs } : Build Unit)
      (modify fun s => { s with findings := s.findings ++ fs.map Finding.erase }) := by
  intro s hs
  refine ⟨List.forall_mem_append.2 ⟨hs, h⟩, ?_⟩
  change ((), (⟨s.table, s.findings.map Finding.erase ++ fs.map Finding.erase⟩ : Progress)) =
    ((), ⟨s.table, (s.findings ++ fs).map Finding.erase⟩)
  rw [List.map_append]

lemma report (p : Problem) {r : Region} (h : R r) : Mirrors R (Build.report p r) (Build.report p nowhere) :=
  findings (List.forall_mem_singleton.2 h)

lemma fail (p : Problem) {r : Region} (h : R r) :
    Mirrors R (Build.fail p r : Build (Option α)) (Build.fail p nowhere) :=
  (report p h).bind fun _ => pure none

end Mirrors

section Leaf

variable {R : Region → Prop}

lemma shareType_mirrors (shape : Shape) : Mirrors R (Build.shareType shape) (Build.shareType shape) :=
  Mirrors.getTable.bind fun _ => (Mirrors.setTable _).bind fun _ => .pure _

lemma shareConstant_mirrors (value : ConstantValue) :
    Mirrors R (Build.shareConstant value) (Build.shareConstant value) :=
  Mirrors.getTable.bind fun _ => (Mirrors.setTable _).bind fun _ => .pure _

lemma placeType_mirrors (shape : Shape) (name : Option String) :
    Mirrors R (Build.placeType shape name) (Build.placeType shape name) := by
  cases name with
  | none => exact shareType_mirrors shape
  | some name => exact Mirrors.getTable.bind fun _ => (Mirrors.setTable _).bind fun _ => .pure _

lemma placing_mirrors {m m' : Build (Option Shape)} (hm : Mirrors R m m') (name : Option String) :
    Mirrors R (Build.placing name m) (Build.placing name m') := by
  refine hm.bind fun r => ?_
  cases r with
  | none => exact .pure none
  | some s => exact (placeType_mirrors s name).bind fun _ => .pure _

lemma resolveType_mirrors {name : Token} (h : R name.region) :
    Mirrors R (Build.resolveType name) (Build.resolveType name.erase) := by
  refine Mirrors.getTable.bind fun t => ?_
  simp only [Token.erase]
  split
  · exact .pure _
  · exact (shareType_mirrors _).bind fun _ => .pure _
  · exact .ite (.fail _ h) (.fail _ h)

lemma component_mirrors {name : Token} (h : R name.region) :
    Mirrors R (Build.component name) (Build.component name.erase) := by
  refine (resolveType_mirrors h).bind fun r => ?_
  cases r with
  | none => exact .pure none
  | some k =>
    refine Mirrors.getTable.bind fun t => ?_
    split
    · exact .pure _
    · exact .fail _ h

lemma vectorSize_mirrors (what : String) {t : Token} (h : R t.region) :
    Mirrors R (Build.vectorSize what t) (Build.vectorSize what t.erase) := by
  simp only [Build.vectorSize, Token.erase]
  split
  · exact .pure _
  · exact .fail _ h

lemma vector_mirrors {size name : Token} (hs : R size.region) (hn : R name.region) :
    Mirrors R (Build.vector size name) (Build.vector size.erase name.erase) :=
  (vectorSize_mirrors _ hs).bind fun _ => (component_mirrors hn).bind fun _ => .pure _

lemma matrix_mirrors {columns rows name : Token} (hc : R columns.region) (hr : R rows.region) (hn : R name.region) :
    Mirrors R (Build.matrix columns rows name) (Build.matrix columns.erase rows.erase name.erase) := by
  refine (vectorSize_mirrors _ hc).bind fun c => (vectorSize_mirrors _ hr).bind fun r => ?_
  refine (component_mirrors hn).bind fun k => ?_
  cases k with
  | none => exact .pure none
  | some k => exact .ite (.pure _) (.fail _ hn)

lemma valuePointer_mirrors {region : Region} (hr : R region) (h : Option Handle) :
    Mirrors R (Build.valuePointer region h) (Build.valuePointer nowhere h) := by
  cases h with
  | none => exact .pure none
  | some h =>
    refine Mirrors.getTable.bind fun t => ?_
    split
    · exact .pure _
    · exact .pure _
    · exact .fail _ hr
    · exact .pure _

lemma arrayLength_mirrors {length : Option Token} (h : ∀ t ∈ length, R t.region) :
    Mirrors R (Build.arrayLength length) (Build.arrayLength (length.map Token.erase)) := by
  cases length with
  | none => exact .pure _
  | some t =>
    have ht := h t rfl
    refine .ite (Mirrors.getTable.bind fun table => ?_) ?_
    · simp only [Token.erase]
      split
      · exact .pure _
      · exact .ite (.fail _ ht) (.fail _ ht)
    · simp only [Token.erase]
      split
      · exact .fail _ ht
      · exact (shareConstant_mirrors _).bind fun _ => .pure _

lemma image_mirrors {dimension : Token} {flag : Option Token} (hd : R dimension.region)
    (hf : ∀ t ∈ flag, R t.region) :
    Mirrors R (Build.image dimension flag) (Build.image dimension.erase (flag.map Token.erase)) := by
  have hdimension : ImageDimension.ofTag? dimension.erase.text = ImageDimension.ofTag? dimension.text := rfl
  rw [Build.image.eq_def, Build.image.eq_def, hdimension]
  cases ImageDimension.ofTag? dimension.text with
  | none => exact .fail _ hd
  | some d =>
    cases flag with
    | none => exact .pure _
    | some t => exact .ite (.pure _) (.fail _ (hf t rfl))

lemma judgeAll_region (allowed : List AttributeKind) (target : String) (accepted : Accepted) (as : List Attribute) :
    ∀ f ∈ (Attribute.judgeAll allowed target accepted as).2, ∃ a ∈ as, f.region = a.region := by
  induction as generalizing accepted with
  | nil => simp [Attribute.judgeAll]
  | cons a rest ih =>
    rw [Attribute.judgeAll]
    have later : ∀ accepted, ∀ f ∈ (Attribute.judgeAll allowed target accepted rest).2,
        ∃ b ∈ a :: rest, f.region = b.region := fun accepted f hf => by
      obtain ⟨b, hb, he⟩ := ih accepted f hf
      exact ⟨b, List.mem_cons_of_mem _ hb, he⟩
    split
    · exact later _
    · exact List.forall_mem_cons.2 ⟨⟨a, List.mem_cons_self, rfl⟩, later _⟩

lemma judgeAll_erase (allowed : List AttributeKind) (target : String) (accepted : Accepted) (as : List Attribute) :
    Attribute.judgeAll allowed target accepted (as.map Attribute.erase) =
      ((Attribute.judgeAll allowed target accepted as).1,
        (Attribute.judgeAll allowed target accepted as).2.map Finding.erase) := by
  induction as generalizing accepted with
  | nil => rfl
  | cons a rest ih =>
    have hjudge : Attribute.judge allowed target accepted a.erase = Attribute.judge allowed target accepted a := rfl
    rw [List.map_cons, Attribute.judgeAll, Attribute.judgeAll, hjudge]
    cases Attribute.judge allowed target accepted a with
    | ok entry => exact ih _
    | error problem =>
      simp only [ih accepted]
      rfl

lemma attributes_mirrors (allowed : List AttributeKind) (target : String) {as : List Attribute}
    (h : ∀ a ∈ as, R a.region) :
    Mirrors R (Build.attributes allowed target as)
      (Build.attributes allowed target (as.map Attribute.erase)) := by
  have hfs : ∀ f ∈ (Attribute.judgeAll allowed target [] as).2, R f.region := fun f hf => by
    obtain ⟨a, ha, he⟩ := judgeAll_region allowed target [] as f hf
    exact he ▸ h a ha
  simp only [Build.attributes, judgeAll_erase, List.map_eq_nil_iff]
  exact (Mirrors.findings hfs).bind fun _ => .pure _

end Leaf

section Syntax

variable {R : Region → Prop}

lemma Body.target_erase (b : Body) : b.erase.target = b.target := by
  cases b with
  | sampler comparison => cases comparison <;> rfl
  | _ => rfl

lemma Body.allowed_erase (b : Body) : b.erase.allowed = b.allowed := by
  cases b <;> rfl

lemma TypeExpr.region_erase (e : TypeExpr) : e.erase.region = nowhere := by
  obtain ⟨as, region, b⟩ := e
  cases as <;> rfl

mutual

lemma typeExpr_mirrors (e : TypeExpr) (name : Option String) (h : ∀ r, Marks (.ofExpr e) r → R r) :
    Mirrors R (Build.typeExpr e name) (Build.typeExpr e.erase name) := by
  obtain ⟨as, region, b⟩ := e
  rw [TypeExpr.erase, Build.typeExpr, Build.typeExpr, Body.target_erase, Body.allowed_erase]
  rw [Outline.ofExpr] at h
  refine (attributes_mirrors _ _ fun a ha => h _ (.attributes a ha)).bind fun accepted => ?_
  cases accepted with
  | none => exact .pure none
  | some accepted =>
    exact body_mirrors b region accepted name fun r hr =>
      h r (.child (List.mem_append_right _ List.mem_cons_self) hr)
termination_by structural e

lemma body_mirrors (b : Body) (region : Region) (accepted : Accepted) (name : Option String)
    (h : ∀ r, Marks (.ofBody region b) r → R r) :
    Mirrors R (Build.body region accepted name b) (Build.body nowhere accepted name b.erase) := by
  cases b with
  | named n =>
    rw [Body.erase, Build.body, Build.body]
    rw [Outline.ofBody] at h
    exact resolveType_mirrors (h _ (.child (by simp) (.leaf n)))
  | vector size c =>
    rw [Body.erase, Build.body, Build.body]
    rw [Outline.ofBody] at h
    exact placing_mirrors (vector_mirrors (h _ (.child (by simp) (.leaf size))) (h _ (.child (by simp) (.leaf c)))) name
  | matrix columns rows c =>
    rw [Body.erase, Build.body, Build.body]
    rw [Outline.ofBody] at h
    exact placing_mirrors (matrix_mirrors (h _ (.child (by simp) (.leaf columns)))
      (h _ (.child (by simp) (.leaf rows))) (h _ (.child (by simp) (.leaf c)))) name
  | pointer target =>
    rw [Body.erase, Build.body, Build.body]
    rw [Outline.ofBody] at h
    have ht := typeExpr_mirrors target none fun r hr => h r (.child (by simp) hr)
    exact placing_mirrors (ht.bind fun _ => .pure _) name
  | valuePointer target =>
    rw [Body.erase, Build.body, Build.body, TypeExpr.region_erase]
    rw [Outline.ofBody] at h
    have ht := typeExpr_mirrors target none fun r hr => h r (.child (by simp) hr)
    have hregion : R target.region := h _ (.child List.mem_cons_self (.expr target))
    exact placing_mirrors (ht.bind fun r => valuePointer_mirrors hregion r) name
  | array element length =>
    rw [Body.erase, Build.body, Build.body]
    rw [Outline.ofBody] at h
    have he := typeExpr_mirrors element none fun r hr => h r (.child (by simp) hr)
    have hlength : ∀ t ∈ length, R t.region := by
      rintro t rfl
      have hspan : Marks (.rule "array_len" (some t.region) [.leaf t]) t.region := .self rfl
      exact h _ (.child (by simp [Outline.ofLength]) hspan)
    exact placing_mirrors (he.bind fun _ => (arrayLength_mirrors hlength).bind fun _ => .pure _) name
  | struct ms =>
    rw [Body.erase, Build.body, Build.body]
    rw [Outline.ofBody] at h
    have hms := members_mirrors ms [] fun o ho r hr => h r (.child ho hr)
    refine placing_mirrors (hms.bind fun r => ?_) name
    split
    · exact .pure _
    · exact (Mirrors.report _ (h _ (.self rfl))).bind fun _ => .pure _
    · exact .pure _
  | image dimension flag =>
    rw [Body.erase, Build.body, Build.body]
    rw [Outline.ofBody] at h
    have hflag : ∀ t ∈ flag, R t.region := by
      rintro t rfl
      exact h _ (.child (by simp) (.leaf t))
    exact placing_mirrors (image_mirrors (h _ (.child (by simp) (.leaf dimension))) hflag) name
  | sampler comparison =>
    rw [Body.erase, Build.body, Build.body]
    exact placing_mirrors (.pure _) name
termination_by structural b

lemma members_mirrors (ms : List Member) (seen : List String)
    (h : ∀ o ∈ Outline.ofMembers ms, ∀ r, Marks o r → R r) :
    Mirrors R (Build.members ms seen) (Build.members (eraseMembers ms) seen) := by
  match ms with
  | [] =>
    rw [eraseMembers, Build.members]
    exact .pure _
  | .mk as name type :: rest =>
    rw [eraseMembers, Member.erase, Build.members, Build.members, Build.member, Build.member]
    rw [Outline.ofMembers, Outline.ofMember] at h
    obtain ⟨h, hrest⟩ := List.forall_mem_cons.1 h
    have has := attributes_mirrors [.align, .size] "struct member" fun a ha => h _ (.attributes a ha)
    have ht := typeExpr_mirrors type none fun r hr => h r (.child (by simp) hr)
    have hname : R name.region := h _ (.child (by simp) (.leaf name))
    refine Mirrors.bind (has.bind fun _ => ht.bind fun _ => ?_) fun _ =>
      (members_mirrors rest (name.text :: seen) hrest).bind fun _ => .pure _
    exact .ite (.fail _ hname) (.pure _)
termination_by structural ms

end

end Syntax

section Items

variable {R : Region → Prop}

lemma literal_mirrors (value : Literal) (h : ∀ r, Marks (.ofLiteral value) r → R r) :
    Mirrors R (Build.literal value) (Build.literal value.erase) := by
  cases value with
  | integer t =>
    simp only [Literal.erase, Build.literal, Token.erase]
    split
    · exact .fail _ (h _ (.self rfl))
    · exact .pure _
  | float t => exact Mirrors.getTable.bind fun _ => .pure _
  | boolean b r => exact .pure _

lemma checkFresh_mirrors {name : Token} (h : R name.region) :
    Mirrors R (Build.checkFresh name) (Build.checkFresh name.erase) :=
  Mirrors.getTable.bind fun _ => .ite ((Mirrors.report _ h).bind fun _ => .pure _) (.pure _)

lemma item_mirrors (i : Item) (h : ∀ r, Marks (.ofItem i) r → R r) : Mirrors R (Build.item i) (Build.item i.erase) := by
  cases i with
  | constant region name value =>
    refine (literal_mirrors value fun r hr => h r (.child (by simp) hr)).bind fun v => ?_
    cases v with
    | none => exact .pure _
    | some v =>
      refine (checkFresh_mirrors (h _ (.child (by simp) (.leaf name)))).bind fun b => ?_
      cases b with
      | false => exact .pure _
      | true => exact Mirrors.getTable.bind fun _ => .setTable _
  | type region name expr =>
    refine (checkFresh_mirrors (h _ (.child (by simp) (.leaf name)))).bind fun b => ?_
    cases b with
    | false => exact .pure _
    | true =>
      refine (typeExpr_mirrors expr _ fun r hr => h r (.child (by simp) hr)).bind fun k => ?_
      cases k with
      | none => exact .pure _
      | some k => exact Mirrors.getTable.bind fun _ => .setTable _

lemma items_mirrors (is : List Item) (h : ∀ i ∈ is, ∀ r, Marks (.ofItem i) r → R r) :
    Mirrors R (Build.items is) (Build.items (is.map Item.erase)) := by
  induction is with
  | nil => exact .pure _
  | cons i rest ih =>
    obtain ⟨hi, hrest⟩ := List.forall_mem_cons.1 h
    exact (item_mirrors i hi).bind fun _ => ih hrest

lemma build_mirrors (is : List Item) :
    (∀ f ∈ (build is).findings, Marks (.ofItems is) f.region) ∧ build (is.map Item.erase) = (build is).erase := by
  have hitems : Mirrors (Marks (.ofItems is)) (Build.items is) (Build.items (is.map Item.erase)) :=
    items_mirrors is fun i hi r hr => .child (List.mem_map_of_mem hi) hr
  obtain ⟨hfindings, hrun⟩ := hitems .initial (by simp [Progress.initial])
  exact ⟨hfindings, congrArg Prod.snd hrun⟩

end Items

end ShaderLayout.Description
