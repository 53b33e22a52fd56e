import ShaderLayout.Proofs.Description.Repeating

/-!
Which entries are shared. Unnamed entries are all different and named ones have names of their own, in every state that a
build passes. These are the states between two calls, and each call only lets the state grow.
-/

namespace ShaderLayout.Description

section Distinct

/-- Entries of an arena: no two unnamed ones are the same, and no two named ones have one name. -/
structure Distinct {α : Type} (differ : α → α → Prop) (nameOf : α → Option String) (entries : List α) : Prop where
  unnamed : (entries.filter fun e => (nameOf e).isNone).Pairwise differ
  named : (entries.filterMap nameOf).Nodup

structure Entered {α : Type} (differ : α → α → Prop) (nameOf : α → Option String) (entries : List α)
    (keys : List String) : Prop where
  distinct : Distinct differ nameOf entries
  entered : ∀ name ∈ entries.filterMap nameOf, name ∈ keys

section Entries

variable {α : Type} {differ : α → α → Prop} {nameOf : α → Option String} {entries entries' : List α} {keys : List String}
  {x : α} {name : String}

lemma Distinct.of_prefix (h : entries <+: entries') (hd : Distinct differ nameOf entries') :
    Distinct differ nameOf entries :=
  ⟨hd.unnamed.sublist (h.sublist.filter _), hd.named.sublist (h.sublist.filterMap _)⟩

namespace Entered

lemma nil : Entered differ nameOf [] keys := ⟨⟨.nil, .nil⟩, by simp⟩

lemma share (h : Entered differ nameOf entries keys) (hx : nameOf x = none) (hnew : ∀ e ∈ entries, differ e x) :
    Entered differ nameOf (entries ++ [x]) keys := by
  have hunnamed : ([x].filter fun e => (nameOf e).isNone) = [x] := by simp [hx]
  have hnamed : [x].filterMap nameOf = [] := by simp [hx]
  refine ⟨⟨?_, ?_⟩, ?_⟩
  · rw [List.filter_append, hunnamed, List.pairwise_append]
    refine ⟨h.distinct.unnamed, List.pairwise_singleton .., fun e he y hy => ?_⟩
    exact List.mem_singleton.1 hy ▸ hnew e (List.mem_of_mem_filter he)
  · rw [List.filterMap_append, hnamed, List.append_nil]
    exact h.distinct.named
  · rw [List.filterMap_append, hnamed, List.append_nil]
    exact h.entered

lemma enter (h : Entered differ nameOf entries keys) (name : String) :
    Entered differ nameOf entries (keys ++ [name]) :=
  ⟨h.distinct, fun n hn => List.mem_append_left _ (h.entered n hn)⟩

lemma own (h : Entered differ nameOf entries keys) (hx : nameOf x = some name) (hnew : name ∉ keys) :
    Entered differ nameOf (entries ++ [x]) (keys ++ [name]) := by
  have hunnamed : ([x].filter fun e => (nameOf e).isNone) = [] := by simp [hx]
  have hnamed : [x].filterMap nameOf = [name] := by simp [hx]
  refine ⟨⟨?_, ?_⟩, ?_⟩
  · rw [List.filter_append, hunnamed, List.append_nil]
    exact h.distinct.unnamed
  · rw [List.filterMap_append, hnamed, List.nodup_append]
    refine ⟨h.distinct.named, List.nodup_singleton name, fun n hn m hm => ?_⟩
    rintro rfl
    exact hnew (List.mem_singleton.1 hm ▸ h.entered n hn)
  · rw [List.filterMap_append, hnamed]
    intro n hn
    exact List.mem_append.2 ((List.mem_append.1 hn).imp_left (h.entered n))

end Entered

end Entries

variable {s s' : Progress}

structure Tidy (t : Table) : Prop where
  types : Entered (· ≠ ·) GpuType.name t.types.toList (t.typeNames.map Prod.fst)
  constants : Entered (fun a b => (a == b) = false) Constant.name t.constants.toList (t.constantNames.map Prod.fst)

lemma Tidy.addition (h : Addition s s') (ht : Tidy s.table) : Tidy s'.table := by
  cases h with
  | findings fs => exact ht
  | type hw hn =>
    refine ⟨?_, ht.constants⟩
    simpa only [Progress.addType, Arena.toList_append] using ht.types.share rfl hn
  | constant hn =>
    refine ⟨ht.types, ?_⟩
    simpa only [Progress.addConstant, Arena.toList_append] using ht.constants.share rfl hn

lemma Tidy.change (h : Change s s') (ht : Tidy s.table) : Tidy s'.table := by
  cases h with
  | addition h => exact ht.addition h
  | type hf hw =>
    refine ⟨?_, ht.constants⟩
    simpa only [Progress.addType, Progress.nameType, Arena.toList_append, List.map_append, List.map_singleton] using
      ht.types.own rfl (not_mem_keys hf.typeNames)
  | reference hf k =>
    refine ⟨?_, ht.constants⟩
    simpa only [Progress.nameType, List.map_append, List.map_singleton] using ht.types.enter _
  | constant hf v =>
    refine ⟨ht.types, ?_⟩
    simpa only [Progress.addConstant, Progress.nameConstant, Arena.toList_append, List.map_append, List.map_singleton] using
      ht.constants.own rfl (not_mem_keys hf.constantNames)

lemma build_tidy (is : List Item) : Tidy (build is).table :=
  build_induction (P := fun s => Tidy s.table) ⟨.nil, .nil⟩ (fun _ _ => Tidy.change) is

lemma Clear.of_extends (h : Extends s s') (hc : Clear s') : Clear s := by
  intro name hp
  have hnone := hc name hp
  cases hl : s.table.typeNames.lookup name with
  | none => rfl
  | some k =>
    rw [h.typeNames.lookup_eq_some hl] at hnone
    cases hnone

lemma Clear.change (h : Change s s') (hc : Clear s) : Clear s' := by
  cases h with
  | addition h =>
    rw [Clear, h.adds.typeNames]
    exact hc
  | constant hf v => exact hc
  | @type own _ hf _ | @reference own hf _ =>
    intro name hp
    have hne : name ≠ own := by
      rintro rfl
      rw [hf.predeclared] at hp
      cases hp
    simp [Progress.nameType, Progress.addType, List.lookup_append, hc name hp, hne]

lemma build_clear (is : List Item) : Clear (build is) :=
  build_induction (by simp [Clear, Progress.initial, Table.empty]) (fun _ _ => Clear.change) is

end Distinct

section Calls

inductive Call
  | items (is : List Item)
  | item (i : Item)
  | expr (e : TypeExpr) (name : Option String)
  | members (ms : List Member) (seen : List String)
  | member (seen : List String) (m : Member)

def Call.after : Call → Progress → Progress
  | .items is, s => ((Build.items is).run s).2
  | .item i, s => ((Build.item i).run s).2
  | .expr e name, s => ((Build.typeExpr e name).run s).2
  | .members ms seen, s => ((Build.members ms seen).run s).2
  | .member seen m, s => ((Build.member seen m).run s).2

structure Frame where
  call : Call
  start : Progress

def Frame.stop (f : Frame) : Progress := f.call.after f.start

def Body.inner : Body → Option TypeExpr
  | .pointer e => some e
  | .valuePointer e => some e
  | .array e _ => some e
  | _ => none

inductive InTurn : Frame → Frame → Frame → Prop
  | items {i : Item} {is : List Item} {s : Progress} :
      InTurn ⟨.items (i :: is), s⟩ ⟨.item i, s⟩ ⟨.items is, Frame.stop ⟨.item i, s⟩⟩
  | members {as : List Attribute} {name : Token} {e : TypeExpr} {ms : List Member} {seen : List String} {s : Progress} :
      InTurn ⟨.members (.mk as name e :: ms) seen, s⟩ ⟨.member seen (.mk as name e), s⟩
        ⟨.members ms (name.text :: seen), Frame.stop ⟨.member seen (.mk as name e), s⟩⟩

inductive Makes : Frame → Frame → Prop
  | first {f g k : Frame} (h : InTurn f g k) : Makes f g
  | second {f g k : Frame} (h : InTurn f g k) : Makes f k
  | definition {region : Region} {name : Token} {e : TypeExpr} {s s' : Progress}
      (h : (Build.checkFresh name).run s = (true, s')) :
      Makes ⟨.item (.type region name e), s⟩ ⟨.expr e (some name.text), s'⟩
  | inner {as : List Attribute} {region : Region} {b : Body} {e : TypeExpr} {name : Option String} {s s' : Progress}
      {accepted : Accepted} (h : (Build.attributes b.allowed b.target as).run s = (some accepted, s'))
      (he : b.inner = some e) : Makes ⟨.expr (.mk as region b) name, s⟩ ⟨.expr e none, s'⟩
  | struct {as : List Attribute} {region : Region} {ms : List Member} {name : Option String} {s s' : Progress}
      {accepted : Accepted} (h : (Build.attributes [] "struct type" as).run s = (some accepted, s')) :
      Makes ⟨.expr (.mk as region (.struct ms)) name, s⟩ ⟨.members ms [], s'⟩
  | memberType {seen : List String} {as : List Attribute} {name : Token} {e : TypeExpr} {accepted : Option Accepted}
      {s s' : Progress} (h : (Build.attributes [.align, .size] "struct member" as).run s = (accepted, s')) :
      Makes ⟨.member seen (.mk as name e), s⟩ ⟨.expr e none, s'⟩

def Made (is : List Item) : Frame → Prop := Relation.ReflTransGen Makes ⟨.items is, .initial⟩

def Precedes (is : List Item) (f g : Frame) : Prop :=
  ∃ p a b, Made is p ∧ InTurn p a b ∧ Relation.ReflTransGen Makes a f ∧ Relation.ReflTransGen Makes b g

def Grows {α : Type} (m : Build α) : Prop := ∀ s, Extends s (m.run s).2

namespace Grows

variable {α β : Type} {m : Build α} {f : α → Build β}

lemma of_gives {Q : α → Prop} (h : Gives m Q) : Grows m := fun s => (h s).1.adds.extends

lemma pure (a : α) : Grows (Pure.pure a) := fun s => .refl s

lemma bind (hm : Grows m) (hf : ∀ a, Grows (f a)) : Grows (m >>= f) := fun s => (hm s).trans (hf _ _)

lemma run (hm : Grows m) {a : α} {s s' : Progress} (h : m.run s = (a, s')) : Extends s s' := by
  have hs := hm s
  rwa [h] at hs

lemma after (hf : ∀ a, Grows (f a)) (s : Progress) : Extends (m.run s).2 ((m >>= f).run s).2 := hf _ _

end Grows

lemma Placed.extends {name : String} {r : Option Handle} {s s' : Progress} (h : Placed name s r s') : Extends s s' := by
  cases h with
  | failed h => exact h.adds.extends
  | own h hw => exact (h.adds.trans (adds_type _ _)).extends

lemma typeExpr_grows (e : TypeExpr) (name : Option String) : Grows (Build.typeExpr e name) := by
  cases name with
  | none => exact .of_gives (typeExpr_gives e)
  | some name =>
    by_cases hm : (Item.type nowhere ⟨.name, name, nowhere⟩ e).MakesType
    · exact fun s => (typeExpr_placed hm s).mono fun _ _ h => h.extends
    · exact .of_gives (typeExpr_reference hm)

lemma Frame.extends (f : Frame) : Extends f.start f.stop := by
  obtain ⟨call, s⟩ := f
  cases call with
  | items is => exact (items_changes is s).extends
  | item i => exact (item_changes i s).extends
  | expr e name => exact typeExpr_grows e name s
  | members ms seen => exact Grows.of_gives (members_gives ms seen) s
  | member seen m =>
    obtain ⟨as, name, e⟩ := m
    exact Grows.of_gives (member_gives seen as name (typeExpr_gives e)) s

lemma placeType_grows (shape : Shape) (name : Option String) : Grows (Build.placeType shape name) := by
  intro s
  have hends : Ends (Build.placeType shape name) s fun _ s' => Extends s s' := by
    apply (placeType_ends s shape name).mono
    rintro h s' (⟨-, rfl⟩ | ⟨-, rfl⟩)
    · exact .refl _
    · exact (adds_type s _).extends
  exact hends

lemma placing_after {m : Build (Option Shape)} (name : Option String) (s : Progress) :
    Extends (m.run s).2 ((Build.placing name m).run s).2 := by
  refine Grows.after (fun r => ?_) s
  cases r with
  | none => exact .pure _
  | some shape => exact .bind (placeType_grows shape name) fun h => .pure _

lemma InTurn.extends {f a b : Frame} (h : InTurn f a b) : f.start = a.start ∧ a.stop = b.start ∧ b.stop = f.stop := by
  cases h with
  | items => exact ⟨rfl, rfl, rfl⟩
  | members =>
    refine ⟨rfl, rfl, ?_⟩
    simp only [Frame.stop, Call.after, Build.members]
    rfl

lemma innerBody_after {b : Body} {e : TypeExpr} (he : b.inner = some e) (region : Region) (accepted : Accepted)
    (name : Option String) (s : Progress) :
    Extends ((Build.typeExpr e none).run s).2 ((Build.body region accepted name b).run s).2 := by
  cases b with
  | pointer target =>
    cases he
    rw [Build.body]
    exact (Grows.after (fun r => .pure _) s).trans (placing_after name s)
  | valuePointer target =>
    cases he
    rw [Build.body]
    exact (Grows.after (fun r => .of_gives (valuePointer_gives _ r)) s).trans (placing_after name s)
  | array element length =>
    cases he
    rw [Build.body]
    refine (Grows.after (fun base => ?_) s).trans (placing_after name s)
    exact .bind (.of_gives (arrayLength_gives length)) fun n => .pure _
  | _ => cases he

lemma structBody_after (ms : List Member) (region : Region) (accepted : Accepted) (name : Option String) (s : Progress) :
    Extends ((Build.members ms []).run s).2 ((Build.body region accepted name (.struct ms)).run s).2 := by
  rw [Build.body]
  refine (Grows.after (fun r => ?_) s).trans (placing_after name s)
  split
  · exact .pure _
  · exact .bind (.of_gives (Gives.report _ _)) fun _ => .pure _
  · exact .pure _

lemma defineType_grows (name : Token) (h : Handle) : Grows (Build.defineType name h) := fun _ =>
  ⟨List.prefix_rfl, List.prefix_rfl, List.prefix_append .., List.prefix_rfl, List.prefix_rfl⟩

lemma Makes.extends {f g : Frame} (h : Makes f g) : Extends f.start g.start ∧ Extends g.stop f.stop := by
  cases h with
  | @first f g k h =>
    obtain ⟨hstart, hmiddle, hstop⟩ := h.extends
    have hk := k.extends
    rw [← hmiddle, hstop] at hk
    exact ⟨hstart ▸ .refl _, hk⟩
  | @second f a k h =>
    obtain ⟨hstart, hmiddle, hstop⟩ := h.extends
    have ha := a.extends
    rw [← hstart, hmiddle] at ha
    exact ⟨ha, hstop ▸ .refl _⟩
  | @definition region name e s s' h =>
    refine ⟨(Grows.of_gives (checkFresh_gives name)).run h, ?_⟩
    simp only [Frame.stop, Call.after, Build.item, StateT.run_bind, h]
    refine Grows.after (fun r => ?_) s'
    cases r with
    | none => exact .pure _
    | some k => exact defineType_grows name k
  | @inner as region b e name s s' accepted h he =>
    refine ⟨(Grows.of_gives (attributes_gives b.allowed b.target as)).run h, ?_⟩
    simp only [Frame.stop, Call.after, Build.typeExpr, StateT.run_bind, h]
    exact innerBody_after he region accepted name s'
  | @struct as region ms name s s' accepted h =>
    refine ⟨(Grows.of_gives (attributes_gives [] "struct type" as)).run h, ?_⟩
    simp only [Frame.stop, Call.after, Build.typeExpr, StateT.run_bind, Body.allowed, Body.target, h]
    exact structBody_after ms region accepted name s'
  | @memberType seen as name e accepted s s' h =>
    refine ⟨(Grows.of_gives (attributes_gives [.align, .size] "struct member" as)).run h, ?_⟩
    simp only [Frame.stop, Call.after, Build.member]
    rw [StateT.run_bind, h]
    refine Grows.after (fun r => ?_) s'
    split
    · exact .of_gives (Gives.fail (P := fun _ => True) _ _)
    · exact .pure _

lemma Makes.extends_of_chain {f g : Frame} (h : Relation.ReflTransGen Makes f g) :
    Extends f.start g.start ∧ Extends g.stop f.stop := by
  induction h with
  | refl => exact ⟨.refl _, .refl _⟩
  | tail _ h ih => exact ⟨ih.1.trans h.extends.1, h.extends.2.trans ih.2⟩

lemma Precedes.extends {is : List Item} {f g : Frame} (h : Precedes is f g) : Extends f.stop g.start := by
  obtain ⟨p, a, b, -, hab, hf, hg⟩ := h
  have hmiddle := hab.extends.2.1
  exact (Makes.extends_of_chain hf).2.trans (hmiddle ▸ (Makes.extends_of_chain hg).1)

end Calls

section Sharing

lemma type_owns {region : Region} {name : Token} {e : TypeExpr} (hm : (Item.type region name e).MakesType)
    (s : Progress) : Ends (Build.item (.type region name e)) s fun _ s' =>
      s'.table.typeNames = s.table.typeNames ∨
        ∃ (a : Arena GpuType) (shape : Shape), s.table.types.toList <+: a.toList ∧
          s'.table.types = a.append ⟨shape, some name.text⟩ ∧
          s'.table.typeNames = s.table.typeNames ++ [(name.text, a.next)] := by
  refine (checkFresh_ends s name).bind fun b s₁ h₁ => ?_
  obtain ⟨-, hadds, -, -⟩ := h₁
  cases b with
  | false => exact Ends.pure (.inl hadds.typeNames)
  | true =>
    refine (typeExpr_placed hm s₁).bind fun r s₂ h₂ => ?_
    cases h₂ with
    | failed h => exact Ends.pure (.inl (hadds.trans h.adds).typeNames)
    | @own s₂ shape h hw =>
      have hall := hadds.trans h.adds
      exact .inr ⟨s₂.table.types, shape, hall.types, rfl, congrArg (· ++ [(name.text, s₂.table.types.next)]) hall.typeNames⟩

/-- Inline types are shared and defined ones are not: in every state passed, and when an expression is built again. -/
theorem inline_types_shared (is : List Item) :
    (∀ f, Made is f → Extends f.start f.stop ∧ Extends f.stop (build is)) ∧
    (∀ f g, Precedes is f g → Extends f.stop g.start) ∧
    (∀ u, Extends u (build is) →
      Distinct (· ≠ ·) GpuType.name u.table.types.toList ∧
      Distinct (fun a b => (a == b) = false) Constant.name u.table.constants.toList ∧
      ∀ e e' s s' h, (Build.typeExpr e none).run s = (some h, s') → Extends s' u → e'.erase = e.erase →
        ∃ fs, Harmless fs ∧ (Build.typeExpr e' none).run u = (some h, u.addFindings fs)) ∧
    ∀ n region name e, is[n]? = some (.type region name e) → (Item.type region name e).MakesType → InOrder is n →
      ∃ (a : Arena GpuType) (shape : Shape), (build (is.take n)).table.types.toList <+: a.toList ∧
        (build (is.take (n + 1))).table.types = a.append ⟨shape, some name.text⟩ ∧
        (build (is.take (n + 1))).table.typeNames =
          (build (is.take n)).table.typeNames ++ [(name.text, a.next)] := by
  refine ⟨fun f hf => ⟨f.extends, (Makes.extends_of_chain hf).2⟩, fun f g => Precedes.extends, fun u hu => ⟨?_, ?_, ?_⟩,
    fun n region name e hi hm ho => ?_⟩
  · exact (build_tidy is).types.distinct.of_prefix hu.types
  · exact (build_tidy is).constants.distinct.of_prefix hu.constants
  · exact fun e e' s s' h hrun hs he => typeExpr_again he hrun hs ((build_clear is).of_extends hu)
  · have howns : _ ∨ _ := type_owns hm (build (is.take n))
    have hstep : build (is.take (n + 1)) = ((Build.item (.type region name e)).run (build (is.take n))).2 := by
      rw [List.take_add_one, hi, Option.toList_some, build_append]
      rfl
    obtain ⟨-, k, hentered, -⟩ := (build_enters hi).entered ho
    rw [← hstep] at howns
    refine howns.resolve_left fun hsame => ?_
    have hentered : (build (is.take (n + 1))).table.typeNames =
      (build (is.take n)).table.typeNames ++ [(name.text, k)] := hentered
    simp [hentered] at hsame

theorem inline_types_shared_array :
    let word (terminal : Terminal) (text : String) (r : Region) : Token := ⟨terminal, text, r⟩
    let element (r : Region) : TypeExpr := .mk [] r (.named (word .name "f32" r))
    let array (r : Region) : TypeExpr := .mk [] r (.array (element r) (some (word .integer "4" r)))
    let is : List Item := [.type nowhere (word .name "P" nowhere) (.mk [] nowhere (.pointer (array nowhere))),
      .type nowhere (word .name "A" nowhere) (array nowhere)]
    (∀ r, ∃ fs, Harmless fs ∧
      (Build.typeExpr (array r) none).run (build is) = (some ⟨1⟩, (build is).addFindings fs)) ∧
    ∃ (a : Arena GpuType) (shape : Shape), (build is).table.types = a.append ⟨shape, some "A"⟩ ∧
      (build is).table.typeNames = [("P", ⟨2⟩), ("A", a.next)] := by
  intro word element array is
  obtain ⟨hmade, -, hpassed, howns⟩ := inline_types_shared is
  constructor
  · intro r
    have hattributes : (Build.attributes [] "pointer type" []).run .initial = (some [], .initial) := rfl
    have hcall : Made is ⟨.expr (array nowhere) none, .initial⟩ :=
      .tail (.tail (.tail .refl (.first .items)) (.definition rfl)) (.inner hattributes rfl)
    have hrun : (Build.typeExpr (array nowhere) none).run .initial =
        (some ⟨1⟩, Frame.stop ⟨.expr (array nowhere) none, .initial⟩) := Prod.ext (by decide +kernel) rfl
    exact (hpassed _ (.refl _)).2.2 _ (array r) _ _ _ hrun (hmade _ hcall).2 rfl
  · have horder : InOrder is 1 := by
      rw [InOrder, Erred]
      decide +kernel
    have hfirst : (build (is.take 1)).table.typeNames = [("P", ⟨2⟩)] := by decide +kernel
    obtain ⟨a, shape, -, htypes, hnames⟩ := howns 1 _ _ _ rfl trivial horder
    rw [show is.take (1 + 1) = is from rfl] at htypes hnames
    rw [hfirst] at hnames
    exact ⟨a, shape, htypes, hnames⟩

end Sharing

end ShaderLayout.Description
