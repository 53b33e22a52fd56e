import ShaderLayout.Proofs.Description.Following
import ShaderLayout.Proofs.Description.Tables

/-!
The layouts of a table are those read off the syntax. The induction over type expressions is that of the
build; the invariant from item to item is a settled table, or the first cause.
-/

namespace ShaderLayout.Description

open Number Layout

section Members

variable {env : Env} {s : Progress}

def MemberDenotes (env : Env) (types : Arena GpuType) (ls : Layouts) (m : StructMember) : Member → Prop
  | .mk as _ type => Denotes types ls m.type (eval env type) ∧ m.align = Attribute.given? .align as ∧
      m.size = Attribute.given? .size as

lemma Denotes.layout {types : Arena GpuType} {ls : Layouts} {h : Handle} {m : Meaning}
    (hd : Denotes types ls h m) :
    ∃ l, ls[h.index]? = some l ∧ m.layout = .ok l := by
  obtain ⟨_, hl⟩ := hd
  exact ⟨_, hl, rfl⟩

lemma MemberDenotes.mono {types types' : Arena GpuType} (ht : types.toList <+: types'.toList)
    {ls ls' : Layouts} (hk : Keeps ls ls') {m : StructMember} {member : Member}
    (hd : MemberDenotes env types ls m member) : MemberDenotes env types' ls' m member := by
  obtain ⟨as, name, type⟩ := member
  exact ⟨hd.1.mono ht hk, hd.2⟩

lemma extent_agrees {types : Arena GpuType} {ls : Layouts} {sms : List StructMember} {ms : List Member}
    (h : List.Forall₂ (MemberDenotes env types ls) sms ms) (total alignment : Int) :
    Agrees (structExtent ls total alignment sms) (evalMembers env total alignment ms) := by
  induction h generalizing total alignment with
  | nil => exact .ok _
  | @cons sm m sms ms hd _ ih =>
    obtain ⟨as, name, type⟩ := m
    obtain ⟨hd, ha, hs⟩ := hd
    obtain ⟨l, hl, he⟩ := hd.layout
    rw [structExtent, place_of_some hl, evalMembers, he, ← ha, ← hs]
    exact ih _ _

lemma array_agrees {t : Table} {ls : Layouts} {base : Handle} {n : ArrayLength} {m : Meaning}
    {count : Except Cause Int} (hd : Denotes t.types ls base m)
    (hc : ∀ h, Agrees (arrayCount t.constants h n) count) (stride : Option Int) (h : Handle) :
    Agrees (ofShape ls t.constants h (.array base n stride)) (do
      let n ← count
      match stride with
      | some s => return ⟨n * s, s⟩
      | none =>
        let l ← m.layout
        let s := roundUp l.alignment l.size
        return ⟨n * s, s⟩) := by
  refine (hc h).bind fun n => ?_
  cases stride with
  | some s => exact .ok _
  | none =>
    obtain ⟨l, hl, he⟩ := hd.layout
    rw [he, resolve_eq_ok_iff.mpr hl]
    exact .ok _

lemma member_follows (hw : s.table.WellFormed) (seen : List String) (as : List Attribute) (name : Token)
    {type : TypeExpr} {c : Option Cause}
    (htype : ∀ {s : Progress}, s.table.WellFormed → Ends (Build.typeExpr type none) s
      (Follows env c (fun h t ls => Denotes t.types ls h (eval env type)) s)) :
    Ends (Build.member seen (.mk as name type)) s
      (Follows env c (fun m t ls => MemberDenotes env t.types ls m (.mk as name type)) s) := by
  rw [Build.member]
  have ha := (attributes_answer hw [.align, .size] "struct member" as).and (attributes_given s _ _ as)
  refine ha.bind fun accepted s₁ hacc => ?_
  obtain ⟨ha, ht, hg⟩ := hacc
  refine (htype ha.wellFormed).bind fun r s₂ hr => ?_
  split
  · exact Ends.fail Follows.none
  · apply Ends.pure
    intro m ls hm hs
    cases accepted with
    | none => cases hm
    | some accepted =>
      cases r with
      | none => cases hm
      | some h =>
        cases hm
        apply (hr.of_table ht h ls rfl hs).imp
        intro ls' _ hd
        exact ⟨hd, hg accepted rfl .align, hg accepted rfl .size⟩

end Members

section Syntax

lemma firstCause_evalAll_append (env : Env) (es es' : List TypeExpr) :
    firstCause (evalAll env (es ++ es')) =
      (firstCause (evalAll env es)).or (firstCause (evalAll env es')) := by
  rw [evalAll, List.map_append, firstCause_append]
  rfl

variable (env : Env)

mutual

theorem typeExpr_follows (e : TypeExpr) (name : Option String) {s : Progress} (hw : s.table.WellFormed) :
    Ends (Build.typeExpr e name) s
      (Follows env (firstCause (evalAll env e.parts))
        (fun h t ls => Denotes t.types ls h (eval env e)) s) := by
  obtain ⟨as, region, b⟩ := e
  rw [Build.typeExpr]
  have ha := (attributes_answer hw b.allowed b.target as).and (attributes_given s _ _ as)
  refine ha.bind fun accepted s₁ hacc => ?_
  obtain ⟨ha, ht, hg⟩ := hacc
  cases accepted with
  | none => exact Ends.pure Follows.none
  | some accepted =>
    apply (body_follows b region as name ha.wellFormed (hg accepted rfl)).mono
    intro r s₂ h
    have hc : firstCause (evalAll env [.mk as region b]) = cause? (evalBody env as b).layout := by
      rw [evalAll, List.map_singleton, firstCause_singleton, eval]
    rw [TypeExpr.parts, firstCause_evalAll_append, hc, eval]
    exact h.of_table ht
termination_by structural e

theorem body_follows (b : Body) (region : Region) {accepted : Accepted} (as : List Attribute)
    (name : Option String) {s : Progress} (hw : s.table.WellFormed)
    (ha : ∀ kind, accepted.lookup kind = Attribute.given? kind as) :
    Ends (Build.body region accepted name b) s
      (Follows env ((firstCause (evalAll env b.parts)).or (cause? (evalBody env as b).layout))
        (fun h t ls => Denotes t.types ls h (evalBody env as b)) s) := by
  cases b with
  | named n =>
    rw [Build.body, evalBody]
    apply (resolveType_follows env s n).mono
    intro r s₁ h k ls hr hs
    have hv := h k ls hr hs
    -- A name in a settled table has a layout, so it is no cause.
    cases hv with
    | settled hk hs' hd =>
      obtain ⟨l, _, hl⟩ := hd.layout
      rw [hl]
      exact .settled hk hs' hd
  | vector size c =>
    rw [Build.body, evalBody]
    exact placing_follows (vector_follows env s size c) name
  | matrix columns rows c =>
    rw [Build.body, evalBody]
    exact placing_follows (matrix_follows env s columns rows c) name
  | pointer target =>
    rw [Build.body, evalBody, Body.parts]
    apply placing_follows
    refine (typeExpr_follows target none hw).bind fun r s₁ h => Ends.pure ?_
    intro shape ls hshape hs
    obtain ⟨k, rfl, rfl⟩ := Option.map_eq_some_iff.mp hshape
    exact (h k ls rfl hs).imp fun _ _ _ => ⟨rfl, fun _ => .ok _⟩
  | valuePointer target =>
    rw [Build.body, evalBody, Body.parts]
    apply placing_follows
    refine (typeExpr_follows target none hw).bind fun r s₁ h => ?_
    apply (valuePointer_ends s₁ target.region r).mono
    intro r' s₂ hr shape ls hshape hs
    obtain ⟨rfl, ⟨k, rfl⟩, n, c, rfl⟩ := hr shape hshape
    exact (h k ls rfl hs).imp fun _ _ _ => ⟨rfl, fun _ => .ok _⟩
  | array element length =>
    rw [Build.body, evalBody, Body.parts]
    apply placing_follows
    have hb := (typeExpr_answer element none hw).and (typeExpr_follows element none hw)
    refine hb.bind fun base s₁ hbase => ?_
    obtain ⟨hb, h⟩ := hbase
    have hn := (arrayLength_answer hb.wellFormed length).and (arrayLength_follows env s₁ length)
    refine hn.bind fun n s₂ hcount => Ends.pure ?_
    obtain ⟨hn, h'⟩ := hcount
    intro shape ls hshape hs
    cases base with
    | none => cases hshape
    | some k =>
      cases n with
      | none => cases hshape
      | some n =>
        cases hshape
        rw [← Option.or_none (o := firstCause _)]
        apply (h k ls rfl hs).later hn.adds.types hn.adds.constants
        intro ls₁ hs₁ hd
        apply (h' n ls₁ rfl hs₁).imp
        intro ls₂ hk hc
        rw [ha .stride]
        exact ⟨rfl, array_agrees (hd.mono hn.adds.types hk) hc _⟩
  | struct ms =>
    rw [Build.body, evalBody, Body.parts]
    apply placing_follows
    refine (members_follows ms [] hw).bind fun r s₁ h => ?_
    have hshape : ∀ sms t ls, List.Forall₂ (MemberDenotes env t.types ls) sms ms → Shapes (do
        let (total, alignment) ← evalMembers env 0 1 ms
        return ⟨roundUp alignment total, alignment⟩) (.struct sms) t ls := by
      intro sms t ls hd
      exact ⟨rfl, fun k => (extent_agrees hd 0 1).bind fun p => .ok _⟩
    cases r with
    | none => exact Ends.pure Follows.none
    | some sms =>
      cases sms with
      | nil =>
        rintro _ ls ⟨⟩ hs
        exact (h [] ls rfl hs).imp fun ls' _ hd => hshape [] s₁.table ls' hd
      | cons m rest =>
        apply Ends.pure
        rintro _ ls ⟨⟩ hs
        exact (h (m :: rest) ls rfl hs).imp fun ls' _ hd => hshape (m :: rest) s₁.table ls' hd
  | image dimension flag =>
    rw [Build.body, evalBody]
    apply placing_follows
    apply (image_ends s dimension flag).mono
    intro r s₁ hr
    apply Follows.still
    intro shape hshape
    obtain ⟨rfl, d, arrayed, rfl⟩ := hr shape hshape
    exact ⟨rfl, fun ls => ⟨rfl, fun _ => .ok _⟩⟩
  | sampler comparison =>
    rw [Build.body, evalBody]
    apply placing_follows
    apply Ends.pure
    apply Follows.still
    rintro _ ⟨⟩
    exact ⟨rfl, fun ls => ⟨rfl, fun _ => .ok _⟩⟩
termination_by structural b

theorem members_follows (ms : List Member) (seen : List String) {s : Progress} (hw : s.table.WellFormed) :
    Ends (Build.members ms seen) s
      (Follows env (firstCause (evalAll env (memberParts ms)))
        (fun sms t ls => List.Forall₂ (MemberDenotes env t.types ls) sms ms) s) := by
  match ms with
  | [] =>
    rw [Build.members, memberParts]
    apply Ends.pure
    apply Follows.still
    rintro _ ⟨⟩
    exact ⟨rfl, fun ls => .nil⟩
  | .mk as name type :: rest =>
    rw [Build.members, memberParts, firstCause_evalAll_append]
    have hm := (member_answer hw seen as name (typeExpr_answer type none)).and
      (member_follows hw seen as name (typeExpr_follows type none))
    refine hm.bind fun first s₁ hfirst => ?_
    obtain ⟨hf, h⟩ := hfirst
    have ho := (members_answer rest (name.text :: seen) hf.wellFormed).and
      (members_follows rest (name.text :: seen) hf.wellFormed)
    refine ho.bind fun others s₂ hothers => Ends.pure ?_
    obtain ⟨ho, h'⟩ := hothers
    intro sms ls hsms hs
    cases first with
    | none => cases hsms
    | some m =>
      cases others with
      | none => cases hsms
      | some sms' =>
        cases hsms
        apply (h m ls rfl hs).later ho.adds.types ho.adds.constants
        intro ls₁ hs₁ hd
        apply (h' sms' ls₁ rfl hs₁).imp
        intro ls₂ hk hds
        exact .cons (hd.mono ho.adds.types hk) hds
termination_by structural ms

end

end Syntax

section Items

variable {env : Env} {s : Progress}

def Quiet (s : Progress) : Prop := ∀ f ∈ s.findings, f.problem.isError = false

lemma Quiet.not_erred {s' : Progress} (hq : Quiet s') : ¬ Erred s s' := by
  intro he
  obtain ⟨f, hf, he⟩ := he.mem
  rw [hq f hf] at he
  cases he

lemma Quiet.before {s' : Progress} (hq : Quiet s') (he : Extends s s') : Quiet s :=
  fun f hf => hq f (he.findings.subset hf)

def Defines (env : Env) (t : Table) (ls : Layouts) : Item → Prop
  | .constant .. => True
  | .type _ name expr => ∃ h, t.typeNames.lookup name.text = some h ∧ Denotes t.types ls h (eval env expr)

lemma Defines.mono {s' : Progress} (he : Extends s s') {ls ls' : Layouts} (hk : Keeps ls ls') {i : Item}
    (hd : Defines env s.table ls i) : Defines env s'.table ls' i := by
  cases i with
  | constant => trivial
  | type region name expr =>
    obtain ⟨h, hh, hd⟩ := hd
    exact ⟨h, he.typeNames.lookup_eq_some hh, hd.mono he.types hk⟩

lemma literal_ends (s : Progress) (value : Literal) : Ends (Build.literal value) s fun r s' =>
    ∀ v, r = some v → s' = s ∧ v.integer? = value.integer? := by
  cases value with
  | integer t =>
    rw [Build.literal, Literal.integer?]
    split
    · exact Ends.fail (by simp)
    · next n suffix hn =>
      apply Ends.pure
      rintro _ ⟨⟩
      refine ⟨rfl, ?_⟩
      rw [hn]
      split <;> rfl
  | float t =>
    apply Ends.getTable
    apply Ends.pure
    rintro _ ⟨⟩
    exact ⟨rfl, rfl⟩
  | boolean b r =>
    apply Ends.pure
    rintro _ ⟨⟩
    exact ⟨rfl, rfl⟩

lemma Settled.defineConstant {t : Table} {ls : Layouts} (hs : Settled env t ls) (region : Region)
    (name : Token) {value : Literal} {v : ConstantValue} (hv : v.integer? = value.integer?) :
    Settled (env.define (.constant region name value)) { t with
      constants := t.constants.append ⟨v, some name.text⟩
      constantNames := t.constantNames ++ [(name.text, t.constants.next)] } ls := by
  have ha := adds_constant ⟨t, []⟩ ⟨v, some name.text⟩
  have hs' := Settled.grow (s := ⟨t, []⟩) hs ha (Keeps.refl ls) (hs.laid.mono ha.types ha.constants)
  refine ⟨hs'.laid, hs.types, fun key => ?_⟩
  exact option_rel_append (hs'.constants key) name.text ⟨_, Arena.get?_append_next .., hv⟩

lemma Settled.defineType {t : Table} {ls : Layouts} (hs : Settled env t ls) (region : Region) (name : Token)
    {expr : TypeExpr} {h : Handle} (hd : Denotes t.types ls h (eval env expr)) :
    Settled (env.define (.type region name expr))
      { t with typeNames := t.typeNames ++ [(name.text, h)] } ls := by
  refine ⟨hs.laid, fun key => ?_, hs.constants⟩
  exact option_rel_append (hs.types key) name.text hd

lemma item_follows (hw : s.table.WellFormed) (i : Item) :
    Ends (Build.item i) s fun _ s' => Quiet s' → ∀ ls, Settled env s.table ls →
      Verdict (env.define i) s'.table ls (fun ls' => Defines env s'.table ls' i)
        (firstCause (evalAll env i.parts)) := by
  cases i with
  | constant region name value =>
    refine ((literal_answer hw value).and (literal_ends s value)).bind fun r s₁ hr => ?_
    obtain ⟨h, hv⟩ := hr
    cases r with
    | none => exact Ends.pure fun hq => (hq.not_erred (h.none_iff.mp rfl)).elim
    | some v =>
      obtain ⟨rfl, hv'⟩ := hv v rfl
      refine (checkFresh_ends s₁ name).bind fun b s₂ hfresh => ?_
      obtain ⟨ht, _, _, hb⟩ := hfresh
      cases b with
      | false => exact Ends.pure fun hq => (hq.not_erred (hb.mp rfl)).elim
      | true =>
        intro _ ls hs
        have hd := (ht ▸ hs : Settled env s₂.table ls).defineConstant region name hv'
        exact .settled (Keeps.refl ls) hd trivial
  | type region name expr =>
    refine (checkFresh_ends s name).bind fun b s₁ hfresh => ?_
    obtain ⟨ht, ha, hf, hb⟩ := hfresh
    cases b with
    | false => exact Ends.pure fun hq => (hq.not_erred (hb.mp rfl)).elim
    | true =>
      have hw₁ : s₁.table.WellFormed := ht ▸ hw
      have he := (typeExpr_answer expr (some name.text) hw₁).and
        (typeExpr_follows env expr (some name.text) hw₁)
      refine he.bind fun r s₂ hr => ?_
      obtain ⟨he, h⟩ := hr
      cases r with
      | none => exact Ends.pure fun hq => (hq.not_erred (he.none_iff.mp rfl)).elim
      | some k =>
        intro _ ls hs
        -- Defining the name changes no type, so the verdict on the expression stays.
        change Verdict _ { s₂.table with typeNames := s₂.table.typeNames ++ [(name.text, k)] } ls _ _
        rw [← Option.or_none (o := firstCause _)]
        refine (h.of_table ht k ls rfl hs).later List.prefix_rfl List.prefix_rfl fun ls' hs' hd => ?_
        refine .settled (Keeps.refl ls') (hs'.defineType region name hd) ⟨k, ?_, hd⟩
        change (s₂.table.typeNames ++ [(name.text, k)]).lookup name.text = some k
        rw [List.lookup_append, he.adds.typeNames, ht, (hf rfl).typeNames]
        simp

lemma causeOf_cons (env : Env) (i : Item) (is : List Item) :
    causeOf env (i :: is) = (firstCause (evalAll env i.parts)).or (causeOf (env.define i) is) := by
  rw [causeOf, occurrences, List.map_append, firstCause_append, List.map_map]
  rfl

lemma items_follows (is : List Item) {env : Env} {s : Progress} (hw : s.table.WellFormed) :
    Ends (Build.items is) s fun _ s' => Quiet s' → ∀ ls, Settled env s.table ls →
      Verdict (is.foldl Env.define env) s'.table ls
        (fun ls' => ∀ before i rest, is = before ++ i :: rest →
          Defines (before.foldl Env.define env) s'.table ls' i)
        (causeOf env is) := by
  induction is generalizing env s with
  | nil => exact fun _ ls hs => .settled (Keeps.refl ls) hs fun before i rest h => by simp at h
  | cons i is ih =>
    intro hq ls hs
    obtain ⟨hw₁, _⟩ := item_keeps hw i
    obtain ⟨_, he⟩ := items_keeps is hw₁
    -- Either the first item decides, or the table is settled when the others are taken.
    rw [causeOf_cons]
    apply (item_follows hw i (hq.before he) ls hs).later he.types he.constants
    intro ls₁ hs₁ hd
    apply (ih hw₁ hq ls₁ hs₁).imp
    intro ls₂ hk hds before j rest h
    cases before with
    | nil =>
      cases h
      exact hd.mono he hk
    | cons b before =>
      cases h
      exact hds before j rest rfl

end Items

section Theorem

lemma settled_empty : Settled .empty Table.empty #[] :=
  ⟨Prefix.nil _ _, fun _ => .none, fun _ => .none⟩

lemma build_verdict {is : List Item} (hq : Quiet (build is)) :
    Verdict (Env.after is) (build is).table #[]
      (fun ls => ∀ before i rest, is = before ++ i :: rest → Defines (Env.after before) (build is).table ls i)
      (causeOf .empty is) :=
  items_follows is Table.WellFormed.empty hq #[] settled_empty

lemma causeOf_eq_none_iff {env : Env} {is : List Item} :
    causeOf env is = none ↔ ∀ p ∈ occurrences env is, ∃ l, (eval p.1 p.2).layout = .ok l := by
  rw [causeOf, firstCause_eq_none_iff, List.forall_mem_map]

/-- The table of an accepted description has layouts exactly if every type expression in it evaluates to one;
then those of the defined types are the same. Otherwise the first expression without a layout says why. -/
theorem table_refines_eval {source : String} {t : Table} (h : (read source).accepted? = some t) :
    ∃ is, parse source = .ok is ∧
      ((∃ ls, Layout.table t.types t.constants = .ok ls) ↔
        ∀ p ∈ occurrences .empty is, ∃ l, (eval p.1 p.2).layout = .ok l) ∧
      (∀ ls, Layout.table t.types t.constants = .ok ls → ∀ before region name expr rest,
        is = before ++ .type region name expr :: rest → ∃ k l, t.typeNames.lookup name.text = some k ∧
          ls.resolve k = .ok l ∧ (eval (Env.after before) expr).layout = .ok l) ∧
      ∀ f, Layout.table t.types t.constants = .error f →
        ∃ c e, causeOf .empty is = some c ∧ Explains c e ∧ f = surfaced e := by
  obtain ⟨is, hp, rfl, hq⟩ := read_accepted h
  refine ⟨is, hp, ?_⟩
  rw [← causeOf_eq_none_iff]
  have hv := build_verdict hq
  generalize causeOf .empty is = c at hv ⊢
  cases hv with
  | @settled layouts _ hs hd =>
    have ht : Layout.table (build is).table.types (build is).table.constants = .ok layouts := by
      rw [Layout.table, hs.laid.fill_all]
    refine ⟨⟨fun _ => rfl, fun _ => ⟨_, ht⟩⟩, fun ls hls before region name expr rest he => ?_,
      fun f hf => ?_⟩
    · rw [ht] at hls
      cases hls
      obtain ⟨k, hk, hd⟩ := hd before _ rest he
      obtain ⟨l, hl, hlayout⟩ := hd.layout
      exact ⟨k, l, hk, resolve_eq_ok_iff.mpr hl, hlayout⟩
    · rw [ht] at hf
      cases hf
  | @broken k layouts e c hf hx =>
    have ht : Layout.table (build is).table.types (build is).table.constants = .error (surfaced e) := hf.table
    refine ⟨⟨?_, by simp⟩, fun ls hls => ?_, fun f hf => ?_⟩
    · rintro ⟨ls, hls⟩
      rw [ht] at hls
      cases hls
    · rw [ht] at hls
      cases hls
    · rw [ht] at hf
      cases hf
      exact ⟨_, _, rfl, hx, rfl⟩

theorem table_refines_eval_array : ∃ t is ls, (read "type A = array<u32, 3>;").accepted? = some t ∧
    parse "type A = array<u32, 3>;" = .ok is ∧ Layout.table t.types t.constants = .ok ls ∧
      (occurrences .empty is).map (fun p => (eval p.1 p.2).layout) = [.ok ⟨4, 4⟩, .ok ⟨12, 4⟩] := by
  have hsome : (read "type A = array<u32, 3>;").accepted?.isSome = true := by decide +kernel
  have heval : ((parse "type A = array<u32, 3>;").toOption.map fun is =>
      (occurrences .empty is).map fun p => (eval p.1 p.2).layout) = some [.ok ⟨4, 4⟩, .ok ⟨12, 4⟩] := by
    decide +kernel
  obtain ⟨t, ht⟩ := Option.isSome_iff_exists.mp hsome
  obtain ⟨is, hp, hiff, _, _⟩ := table_refines_eval ht
  rw [hp] at heval
  have hlayouts : (occurrences .empty is).map (fun p => (eval p.1 p.2).layout) = [.ok ⟨4, 4⟩, .ok ⟨12, 4⟩] :=
    Option.some.inj heval
  have hall : ∀ p ∈ occurrences .empty is, ∃ l, (eval p.1 p.2).layout = .ok l := by
    intro p hmem
    have hl : (eval p.1 p.2).layout ∈ (occurrences .empty is).map fun p => (eval p.1 p.2).layout :=
      List.mem_map_of_mem hmem
    rw [hlayouts] at hl
    simp only [List.mem_cons, List.not_mem_nil, or_false] at hl
    rcases hl with hl | hl
    · exact ⟨_, hl⟩
    · exact ⟨_, hl⟩
  obtain ⟨ls, hls⟩ := hiff.mpr hall
  exact ⟨t, is, ls, ht, hp, hls, hlayouts⟩

end Theorem

end ShaderLayout.Description
