import Mathlib
import ShaderLayout.Description.Parser

/-!
The machine that reads tokens, as a relation: `Step` lists what a token can do to each state. Which terminals are
tried first never changes where the machine gets to, since those that a state allows are always among them; and
from every state it can still get to the end of an item.
-/

namespace ShaderLayout.Description

open ShaderLayout.Description.Configuration (plain)

inductive Step (t : Token) : State → Configuration → Prop
  | const {done : List Item} (h : t.terminal = .const) :
      Step t (.items done) (plain (.constName done t.region.start))
  | type {done : List Item} (h : t.terminal = .type) : Step t (.items done) (plain (.typeName done t.region.start))
  | expect {k : Terminal} {next : State} (h : t.terminal = k) : Step t (.expect k next) (plain next)
  | constName {done : List Item} {start : Position} (h : t.terminal = .name) :
      Step t (.constName done start) (plain (.expect .equal (.constValue done start t)))
  | integer {done : List Item} {start : Position} {name : Token} (h : t.terminal = .integer) :
      Step t (.constValue done start name) (plain (.constEnd done start name (.integer t)))
  | float {done : List Item} {start : Position} {name : Token} (h : t.terminal = .float) :
      Step t (.constValue done start name) (plain (.constEnd done start name (.float t)))
  | trueWord {done : List Item} {start : Position} {name : Token} (h : t.terminal = .trueWord) :
      Step t (.constValue done start name) (plain (.constEnd done start name (.boolean true t.region)))
  | falseWord {done : List Item} {start : Position} {name : Token} (h : t.terminal = .falseWord) :
      Step t (.constValue done start name) (plain (.constEnd done start name (.boolean false t.region)))
  | constEnd {done : List Item} {start : Position} {name : Token} {value : Literal} (h : t.terminal = .semicolon) :
      Step t (.constEnd done start name value)
        (plain (.items (.constant ⟨start, t.region.stop⟩ name value :: done)))
  | typeName {done : List Item} {start : Position} (h : t.terminal = .name) :
      Step t (.typeName done start) (plain (.expect .equal (.expression (.definition done start t) [])))
  | typeEnd {done : List Item} {start : Position} {name : Token} {expr : TypeExpr} (h : t.terminal = .semicolon) :
      Step t (.typeEnd done start name expr) (plain (.items (.type ⟨start, t.region.stop⟩ name expr :: done)))
  | typeAttribute {context : Context} {as : List Attribute} (h : t.terminal = .atSign) :
      Step t (.expression context as) (plain (.attributeName (.expression context as) t.region.start))
  | memberAttribute {o : Opening} {ms : List Member} {as : List Attribute} (h : t.terminal = .atSign) :
      Step t (.member o ms as) (plain (.attributeName (.member o ms as) t.region.start))
  | attributeName {owner : Owner} {start : Position} (h : t.terminal = .name) :
      Step t (.attributeName owner start) (plain (.expect .leftParen (.attributeValue owner start t)))
  | attributeValue {owner : Owner} {start : Position} {name : Token} (h : t.terminal = .integer) :
      Step t (.attributeValue owner start name) (plain (.attributeEnd owner start name t))
  | attributeEnd {owner : Owner} {start : Position} {name value : Token} (h : t.terminal = .rightParen) :
      Step t (.attributeEnd owner start name value)
        ⟨expressionStart, owner.addAttribute ⟨name, value, ⟨start, t.region.stop⟩⟩⟩
  | named {context : Context} {as : List Attribute} (h : t.terminal = .name) :
      Step t (.expression context as) (Opening.close ⟨context, as, t.region.start⟩ t.region.stop (.named t))
  | sampler {context : Context} {as : List Attribute} (h : t.terminal = .sampler) :
      Step t (.expression context as) (Opening.close ⟨context, as, t.region.start⟩ t.region.stop (.sampler false))
  | samplerComparison {context : Context} {as : List Attribute} (h : t.terminal = .samplerComparison) :
      Step t (.expression context as) (Opening.close ⟨context, as, t.region.start⟩ t.region.stop (.sampler true))
  | vec {context : Context} {as : List Attribute} (h : t.terminal = .vec) :
      Step t (.expression context as) (plain (.expect .lessThan (.vectorSize ⟨context, as, t.region.start⟩)))
  | mat {context : Context} {as : List Attribute} (h : t.terminal = .mat) :
      Step t (.expression context as) (plain (.expect .lessThan (.matrixColumns ⟨context, as, t.region.start⟩)))
  | ptr {context : Context} {as : List Attribute} (h : t.terminal = .ptr) :
      Step t (.expression context as)
        (plain (.expect .lessThan (.expression (.pointer context as t.region.start) [])))
  | valuePtr {context : Context} {as : List Attribute} (h : t.terminal = .valuePtr) :
      Step t (.expression context as)
        (plain (.expect .lessThan (.expression (.valuePointer context as t.region.start) [])))
  | array {context : Context} {as : List Attribute} (h : t.terminal = .array) :
      Step t (.expression context as)
        (plain (.expect .lessThan (.expression (.array context as t.region.start) [])))
  | struct {context : Context} {as : List Attribute} (h : t.terminal = .struct) :
      Step t (.expression context as) (plain (.expect .leftBrace (.member ⟨context, as, t.region.start⟩ [] [])))
  | image {context : Context} {as : List Attribute} (h : t.terminal = .image) :
      Step t (.expression context as) (plain (.expect .lessThan (.imageDimension ⟨context, as, t.region.start⟩)))
  | vectorSize {o : Opening} (h : t.terminal = .integer) :
      Step t (.vectorSize o) (plain (.expect .comma (.vectorComponent o t)))
  | vectorComponent {o : Opening} {size : Token} (h : t.terminal = .name) :
      Step t (.vectorComponent o size) (plain (.bodyEnd o (.vector size t)))
  | matrixColumns {o : Opening} (h : t.terminal = .integer) :
      Step t (.matrixColumns o) (plain (.expect .comma (.matrixRows o t)))
  | matrixRows {o : Opening} {columns : Token} (h : t.terminal = .integer) :
      Step t (.matrixRows o columns) (plain (.expect .comma (.matrixComponent o columns t)))
  | matrixComponent {o : Opening} {columns rows : Token} (h : t.terminal = .name) :
      Step t (.matrixComponent o columns rows) (plain (.bodyEnd o (.matrix columns rows t)))
  | arrayComma {o : Opening} {element : TypeExpr} (h : t.terminal = .comma) :
      Step t (.arrayRest o element) (plain (.arrayLength o element))
  | arrayEnd {o : Opening} {element : TypeExpr} (h : t.terminal = .moreThan) :
      Step t (.arrayRest o element) (o.close t.region.stop (.array element none))
  | arrayLength {o : Opening} {element : TypeExpr} (h : t.terminal = .integer ∨ t.terminal = .name) :
      Step t (.arrayLength o element) (plain (.bodyEnd o (.array element (some t))))
  | imageDimension {o : Opening} (h : t.terminal = .name) : Step t (.imageDimension o) (plain (.imageRest o t))
  | imageComma {o : Opening} {dimension : Token} (h : t.terminal = .comma) :
      Step t (.imageRest o dimension) (plain (.imageFlag o dimension))
  | imageEnd {o : Opening} {dimension : Token} (h : t.terminal = .moreThan) :
      Step t (.imageRest o dimension) (o.close t.region.stop (.image dimension none))
  | imageFlag {o : Opening} {dimension : Token} (h : t.terminal = .name) :
      Step t (.imageFlag o dimension) (plain (.bodyEnd o (.image dimension (some t))))
  | bodyEnd {o : Opening} {body : Body} (h : t.terminal = .moreThan) :
      Step t (.bodyEnd o body) (o.close t.region.stop body)
  | memberName {o : Opening} {ms : List Member} {as : List Attribute} (h : t.terminal = .name) :
      Step t (.member o ms as)
        (plain (.expect .colon (.expression (.member o.context o.attributes o.start ms as t) [])))
  | noMember {o : Opening} {ms : List Member} (h : t.terminal = .rightBrace) :
      Step t (.member o ms []) (o.close t.region.stop (.struct ms.reverse))
  | memberComma {o : Opening} {ms : List Member} (h : t.terminal = .comma) :
      Step t (.memberEnd o ms) (plain (.member o ms []))
  | structEnd {o : Opening} {ms : List Member} (h : t.terminal = .rightBrace) :
      Step t (.memberEnd o ms) (o.close t.region.stop (.struct ms.reverse))

lemma Step.advance {t : Token} {s : State} {c : Configuration} (h : Step t s c) : s.advance t = some c := by
  cases h with
  | arrayLength h => rcases h with h | h <;> simp [State.advance, h]
  | expect h => simp [State.advance, h]
  | _ => simp [State.advance, State.startExpression, State.startMember, *]

lemma step_of_advance {t : Token} {s : State} {c : Configuration} (h : s.advance t = some c) : Step t s c := by
  cases s with
  | expression context attributes =>
    simp only [State.advance, State.startExpression] at h
    split at h <;> cases h <;> constructor <;> assumption
  | member o members attributes =>
    simp only [State.advance, State.startMember] at h
    split at h <;> cases h <;> constructor <;> assumption
  | _ =>
    simp only [State.advance] at h
    split at h <;> cases h <;> constructor <;> assumption

namespace State

def after : State → List Token → Option State
  | s, [] => some s
  | s, t :: ts => (s.advance t).bind fun c => c.state.after ts

@[simp] lemma after_nil (s : State) : s.after [] = some s := rfl

lemma after_cons (s : State) (t : Token) (ts : List Token) :
    s.after (t :: ts) = (s.advance t).bind fun c => c.state.after ts := rfl

lemma after_append (s : State) (ts us : List Token) :
    s.after (ts ++ us) = (s.after ts).bind fun s' => s'.after us := by
  induction ts generalizing s with
  | nil => rfl
  | cons t ts ih =>
    rw [List.cons_append, after_cons, after_cons, Option.bind_assoc]
    exact congrArg _ (funext fun c => ih c.state)

lemma after_of_step {s : State} {t : Token} {c : Configuration} (h : Step t s c) (ts : List Token) :
    s.after (t :: ts) = c.state.after ts := by
  rw [after_cons, h.advance, Option.bind_some]

lemma after_of_append {s s' : State} {ts : List Token} (h : s.after ts = some s') (us : List Token) :
    s.after (ts ++ us) = s'.after us := by
  rw [after_append, h, Option.bind_some]

end State

section Lookahead

lemma Step.allowed {t : Token} {s : State} {c : Configuration} (h : Step t s c) : t.terminal ∈ s.allowed := by
  cases h with
  | arrayLength h => rcases h with h | h <;> simp [State.allowed, h]
  | @memberAttribute o ms as h => cases as <;> simp [State.allowed, h]
  | @memberName o ms as h => cases as <;> simp [State.allowed, h]
  | expect h => simp [State.allowed, h]
  | _ => simp [State.allowed, expressionStart, *]

def Configuration.Wide (c : Configuration) : Prop := c.state.allowed ⊆ c.lookahead

lemma wide_close (o : Opening) (stop : Position) (body : Body) : (o.close stop body).Wide := by
  obtain ⟨context, attributes, start⟩ := o
  cases context <;> simp [Configuration.Wide, Opening.close, Context.resume, State.allowed, expressionFollow]

lemma Step.wide {t : Token} {s : State} {c : Configuration} (h : Step t s c) : c.Wide := by
  cases h with
  | named | sampler | samplerComparison | arrayEnd | imageEnd | bodyEnd | noMember | structEnd =>
    exact wide_close ..
  | @attributeEnd owner =>
    cases owner with
    | expression => exact List.Subset.refl _
    | member o members attributes =>
      cases attributes <;> simp [Configuration.Wide, Owner.addAttribute, State.allowed, expressionStart]
  | _ => exact List.Subset.refl _

end Lookahead

section Run

def lastStart (p : Position) (ts : List Token) : Position := (ts.getLast?.map (·.region.start)).getD p

lemma lastStart_cons (p : Position) (t : Token) (ts : List Token) :
    lastStart p (t :: ts) = lastStart t.region.start ts := by
  simp only [lastStart, List.getLast?_cons, Option.map_some, Option.getD_some]
  exact (Option.getD_map (fun t : Token => t.region.start) t ts.getLast?).symm

lemma Configuration.Wide.feed {c d : Configuration} {t : Token} (hc : c.Wide) (h : Step t c.state d) :
    c.feed t = .ok d := by
  rw [Configuration.feed, if_pos (hc h.allowed), h.advance]

lemma run_after {c : Configuration} {s : State} (hc : c.Wide) {us : List Token} (h : c.state.after us = some s)
    (p : Position) (ts : List Token) (e : Ending) :
    ∃ d : Configuration, d.Wide ∧ d.state = s ∧ run c p (us ++ ts) e = run d (lastStart p us) ts e := by
  induction us generalizing c p with
  | nil => exact ⟨c, hc, Option.some.inj h, rfl⟩
  | cons u us ih =>
    rw [State.after_cons, Option.bind_eq_some_iff] at h
    obtain ⟨c', hc', hus⟩ := h
    have hs := step_of_advance hc'
    obtain ⟨d, hd, hstate, hrun⟩ := ih hs.wide hus u.region.start
    refine ⟨d, hd, hstate, ?_⟩
    rw [List.cons_append, run, hc.feed hs, lastStart_cons]
    exact hrun

lemma run_refused {c : Configuration} (hc : c.Wide) {t : Token} (h : c.state.advance t = none) (p : Position)
    (ts : List Token) (e : Ending) :
    ∃ expected, c.state.allowed ⊆ expected ∧ run c p (t :: ts) e = .error (.unexpectedToken t expected) := by
  have hfeed : ∃ expected, c.state.allowed ⊆ expected ∧ c.feed t = .error expected := by
    rw [Configuration.feed, h]
    split
    · exact ⟨_, List.Subset.refl _, rfl⟩
    · exact ⟨_, hc, rfl⟩
  obtain ⟨expected, hsub, hf⟩ := hfeed
  exact ⟨expected, hsub, by rw [run, hf]⟩

lemma State.after_cases (s : State) (ts : List Token) : (∃ s', s.after ts = some s') ∨
    ∃ us t vs s', ts = us ++ t :: vs ∧ s.after us = some s' ∧ s'.advance t = none := by
  induction ts generalizing s with
  | nil => exact .inl ⟨s, rfl⟩
  | cons t ts ih =>
    cases ha : s.advance t with
    | none => exact .inr ⟨[], t, ts, s, rfl, rfl, ha⟩
    | some c =>
      have hs := step_of_advance ha
      obtain ⟨s', h⟩ | ⟨us, t', vs, s', rfl, h⟩ := ih c.state
      · exact .inl ⟨s', (State.after_of_step hs ts).trans h⟩
      · exact .inr ⟨t :: us, t', vs, s', rfl, (State.after_of_step hs us).trans h.1, h.2⟩

end Run

section Live

def State.Live (s : State) : Prop := ∃ ts done, s.after ts = some (.items done)

def mark (k : Terminal) : Token := ⟨k, "", ⟨.origin, .origin⟩⟩

lemma Step.live {t : Token} {s : State} {c : Configuration} (h : Step t s c) (hc : c.state.Live) : s.Live := by
  obtain ⟨ts, done, hts⟩ := hc
  exact ⟨t :: ts, done, (State.after_of_step h ts).trans hts⟩

lemma Context.live (context : Context) (e : TypeExpr) : (context.resume e).Live := by
  induction context generalizing e with
  | definition done start name => exact (Step.typeEnd (t := mark .semicolon) rfl).live ⟨[], _, rfl⟩
  | pointer outer attributes start ih => exact (Step.bodyEnd (t := mark .moreThan) rfl).live (ih _)
  | valuePointer outer attributes start ih => exact (Step.bodyEnd (t := mark .moreThan) rfl).live (ih _)
  | array outer attributes start ih => exact (Step.arrayEnd (t := mark .moreThan) rfl).live (ih _)
  | member outer attributes start members own name ih =>
    exact (Step.structEnd (t := mark .rightBrace) rfl).live (ih _)

lemma expression_live (context : Context) (as : List Attribute) : (State.expression context as).Live :=
  (Step.sampler (t := mark .sampler) rfl).live (context.live _)

lemma bodyEnd_live (o : Opening) (body : Body) : (State.bodyEnd o body).Live :=
  (Step.bodyEnd (t := mark .moreThan) rfl).live (o.context.live _)

lemma member_live (o : Opening) (ms : List Member) (as : List Attribute) : (State.member o ms as).Live :=
  (Step.memberName (t := mark .name) rfl).live ((Step.expect (t := mark .colon) rfl).live (expression_live _ _))

lemma attributeEnd_live (owner : Owner) (start : Position) (name value : Token) :
    (State.attributeEnd owner start name value).Live := by
  refine (Step.attributeEnd (t := mark .rightParen) rfl).live ?_
  cases owner with
  | expression context attributes => exact expression_live _ _
  | member o members attributes => exact member_live _ _ _

lemma State.live (s : State) : s.Live := by
  have attributeValue : ∀ owner start name, (State.attributeValue owner start name).Live := fun _ _ _ =>
    (Step.attributeValue (t := mark .integer) rfl).live (attributeEnd_live ..)
  have constEnd : ∀ done start name value, (State.constEnd done start name value).Live := fun _ _ _ _ =>
    (Step.constEnd (t := mark .semicolon) rfl).live ⟨[], _, rfl⟩
  have constValue : ∀ done start name, (State.constValue done start name).Live := fun _ _ _ =>
    (Step.trueWord (t := mark .trueWord) rfl).live (constEnd ..)
  have vectorComponent : ∀ o size, (State.vectorComponent o size).Live := fun _ _ =>
    (Step.vectorComponent (t := mark .name) rfl).live (bodyEnd_live ..)
  have matrixComponent : ∀ o columns rows, (State.matrixComponent o columns rows).Live := fun _ _ _ =>
    (Step.matrixComponent (t := mark .name) rfl).live (bodyEnd_live ..)
  have matrixRows : ∀ o columns, (State.matrixRows o columns).Live := fun _ _ =>
    (Step.matrixRows (t := mark .integer) rfl).live ((Step.expect (t := mark .comma) rfl).live (matrixComponent ..))
  have imageRest : ∀ o dimension, (State.imageRest o dimension).Live := fun _ _ =>
    (Step.imageEnd (t := mark .moreThan) rfl).live (Context.live ..)
  -- The induction is for `expect`; elsewhere one token leads to a state that was closed before.
  induction s with
  | items done => exact ⟨[], done, rfl⟩
  | expect k next ih => exact (Step.expect (t := mark k) rfl).live ih
  | constName done start =>
    exact (Step.constName (t := mark .name) rfl).live ((Step.expect (t := mark .equal) rfl).live (constValue ..))
  | constValue => exact constValue ..
  | constEnd => exact constEnd ..
  | typeName done start =>
    exact (Step.typeName (t := mark .name) rfl).live ((Step.expect (t := mark .equal) rfl).live (expression_live ..))
  | typeEnd => exact Context.live (.definition _ _ _) _
  | expression => exact expression_live ..
  | attributeName owner start =>
    exact (Step.attributeName (t := mark .name) rfl).live
      ((Step.expect (t := mark .leftParen) rfl).live (attributeValue ..))
  | attributeValue => exact attributeValue ..
  | attributeEnd => exact attributeEnd_live ..
  | vectorSize o =>
    exact (Step.vectorSize (t := mark .integer) rfl).live
      ((Step.expect (t := mark .comma) rfl).live (vectorComponent ..))
  | vectorComponent => exact vectorComponent ..
  | matrixColumns o =>
    exact (Step.matrixColumns (t := mark .integer) rfl).live
      ((Step.expect (t := mark .comma) rfl).live (matrixRows ..))
  | matrixRows => exact matrixRows ..
  | matrixComponent => exact matrixComponent ..
  | arrayRest o element => exact Context.live (.array o.context o.attributes o.start) element
  | arrayLength o element => exact (Step.arrayLength (t := mark .name) (.inr rfl)).live (bodyEnd_live ..)
  | imageDimension o => exact (Step.imageDimension (t := mark .name) rfl).live (imageRest ..)
  | imageRest => exact imageRest ..
  | imageFlag o dimension => exact (Step.imageFlag (t := mark .name) rfl).live (bodyEnd_live ..)
  | bodyEnd => exact bodyEnd_live ..
  | member => exact member_live ..
  | memberEnd o ms => exact (Step.structEnd (t := mark .rightBrace) rfl).live (Context.live ..)

end Live

end ShaderLayout.Description
