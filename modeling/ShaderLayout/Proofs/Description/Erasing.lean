import ShaderLayout.Proofs.Description.Machine
import ShaderLayout.Proofs.Description.Writing

namespace ShaderLayout.Description

open ShaderLayout.Description.Configuration (plain)

section Syntax

def nowhere : Region := ⟨.origin, .origin⟩

def Token.erase (t : Token) : Token := ⟨t.terminal, t.text, nowhere⟩

def Attribute.erase (a : Attribute) : Attribute := ⟨a.name.erase, a.value.erase, nowhere⟩

def Literal.erase : Literal → Literal
  | .integer t => .integer t.erase
  | .float t => .float t.erase
  | .boolean b _ => .boolean b nowhere

mutual

def TypeExpr.erase : TypeExpr → TypeExpr
  | .mk attributes _ body => .mk (attributes.map Attribute.erase) nowhere body.erase

def Body.erase : Body → Body
  | .named name => .named name.erase
  | .vector size component => .vector size.erase component.erase
  | .matrix columns rows component => .matrix columns.erase rows.erase component.erase
  | .pointer target => .pointer target.erase
  | .valuePointer target => .valuePointer target.erase
  | .array element length => .array element.erase (length.map Token.erase)
  | .struct members => .struct (eraseMembers members)
  | .image dimension flag => .image dimension.erase (flag.map Token.erase)
  | .sampler comparison => .sampler comparison

def Member.erase : Member → Member
  | .mk attributes name type => .mk (attributes.map Attribute.erase) name.erase type.erase

def eraseMembers : List Member → List Member
  | [] => []
  | m :: ms => m.erase :: eraseMembers ms

end

lemma eraseMembers_eq_map (ms : List Member) : eraseMembers ms = ms.map Member.erase := by
  induction ms with
  | nil => rfl
  | cons m ms ih => rw [eraseMembers, ih, List.map_cons]

def Item.erase : Item → Item
  | .constant _ name value => .constant nowhere name.erase value.erase
  | .type _ name expr => .type nowhere name.erase expr.erase

def Context.erase : Context → Context
  | .definition done _ name => .definition (done.map Item.erase) .origin name.erase
  | .pointer outer attributes _ => .pointer outer.erase (attributes.map Attribute.erase) .origin
  | .valuePointer outer attributes _ => .valuePointer outer.erase (attributes.map Attribute.erase) .origin
  | .array outer attributes _ => .array outer.erase (attributes.map Attribute.erase) .origin
  | .member outer attributes _ members own name =>
    .member outer.erase (attributes.map Attribute.erase) .origin (eraseMembers members) (own.map Attribute.erase)
      name.erase

def Opening.erase (o : Opening) : Opening := ⟨o.context.erase, o.attributes.map Attribute.erase, .origin⟩

def Owner.erase : Owner → Owner
  | .expression context attributes => .expression context.erase (attributes.map Attribute.erase)
  | .member opening members attributes =>
    .member opening.erase (eraseMembers members) (attributes.map Attribute.erase)

def State.erase : State → State
  | .items done => .items (done.map Item.erase)
  | .expect terminal next => .expect terminal next.erase
  | .constName done _ => .constName (done.map Item.erase) .origin
  | .constValue done _ name => .constValue (done.map Item.erase) .origin name.erase
  | .constEnd done _ name value => .constEnd (done.map Item.erase) .origin name.erase value.erase
  | .typeName done _ => .typeName (done.map Item.erase) .origin
  | .typeEnd done _ name expr => .typeEnd (done.map Item.erase) .origin name.erase expr.erase
  | .expression context attributes => .expression context.erase (attributes.map Attribute.erase)
  | .attributeName owner _ => .attributeName owner.erase .origin
  | .attributeValue owner _ name => .attributeValue owner.erase .origin name.erase
  | .attributeEnd owner _ name value => .attributeEnd owner.erase .origin name.erase value.erase
  | .vectorSize o => .vectorSize o.erase
  | .vectorComponent o size => .vectorComponent o.erase size.erase
  | .matrixColumns o => .matrixColumns o.erase
  | .matrixRows o columns => .matrixRows o.erase columns.erase
  | .matrixComponent o columns rows => .matrixComponent o.erase columns.erase rows.erase
  | .arrayRest o element => .arrayRest o.erase element.erase
  | .arrayLength o element => .arrayLength o.erase element.erase
  | .imageDimension o => .imageDimension o.erase
  | .imageRest o dimension => .imageRest o.erase dimension.erase
  | .imageFlag o dimension => .imageFlag o.erase dimension.erase
  | .bodyEnd o body => .bodyEnd o.erase body.erase
  | .member o members attributes => .member o.erase (eraseMembers members) (attributes.map Attribute.erase)
  | .memberEnd o members => .memberEnd o.erase (eraseMembers members)

def Configuration.erase (c : Configuration) : Configuration := ⟨c.lookahead, c.state.erase⟩

end Syntax

section Steps

lemma State.allowed_erase (s : State) : s.erase.allowed = s.allowed := by
  cases s with
  | member o ms as => cases as <;> rfl
  | _ => rfl

lemma Configuration.erase_plain (s : State) : (plain s).erase = plain s.erase := by
  rw [Configuration.erase, plain, plain, State.allowed_erase]

lemma Context.resume_erase (context : Context) (e : TypeExpr) :
    (context.resume e).erase = context.erase.resume e.erase := by
  cases context <;> rfl

lemma Opening.close_erase (o : Opening) (stop : Position) (body : Body) :
    (o.close stop body).erase = o.erase.close .origin body.erase := by
  rw [Configuration.erase, Opening.close, Opening.close, Context.resume_erase]
  rfl

lemma Owner.addAttribute_erase (owner : Owner) (a : Attribute) :
    (owner.addAttribute a).erase = owner.erase.addAttribute a.erase := by
  cases owner <;> simp [Owner.addAttribute, Owner.erase, State.erase]

lemma Step.erase {t : Token} {s : State} {c : Configuration} (h : Step t s c) : Step t.erase s.erase c.erase := by
  cases h with
  | expect h =>
    rw [Configuration.erase_plain]
    exact .expect h
  | attributeEnd h =>
    rw [Configuration.erase, Owner.addAttribute_erase]
    exact .attributeEnd h
  | named h | sampler h | samplerComparison h | arrayEnd h | imageEnd h | bodyEnd h =>
    rw [Opening.close_erase]
    constructor
    exact h
  | @noMember o ms h =>
    rw [Opening.close_erase, Body.erase, eraseMembers_eq_map, List.map_reverse, ← eraseMembers_eq_map]
    exact .noMember h
  | @structEnd o ms h =>
    rw [Opening.close_erase, Body.erase, eraseMembers_eq_map, List.map_reverse, ← eraseMembers_eq_map]
    exact .structEnd h
  | _ =>
    constructor
    assumption

lemma State.isSome_advance_erase (s : State) (t : Token) :
    (s.erase.advance t.erase).isSome = (s.advance t).isSome := by
  cases s with
  | expression context as =>
    simp only [State.erase, State.advance, State.startExpression, Token.erase]
    split <;> simp [*]
  | member o ms as =>
    simp only [State.erase, State.advance, State.startMember, Token.erase]
    cases as with
    | nil => split <;> simp_all
    | cons a as => split <;> simp_all
  | _ =>
    simp only [State.erase, State.advance, Token.erase]
    split <;> simp [*]

lemma State.advance_erase (s : State) (t : Token) :
    s.erase.advance t.erase = (s.advance t).map Configuration.erase := by
  cases h : s.advance t with
  | some c => exact (step_of_advance h).erase.advance
  | none =>
    have hnone := s.isSome_advance_erase t
    rw [h] at hnone
    exact Option.not_isSome_iff_eq_none.1 (Bool.eq_false_iff.1 hnone)

end Steps

section Runs

def Fault.erase : Fault → Fault
  | .unexpectedEnd _ => .unexpectedEnd .origin
  | .unexpectedToken t expected => .unexpectedToken t.erase expected
  | .strayCharacter c _ => .strayCharacter c .origin

def eraseParse : Except Fault (List Item) → Except Fault (List Item)
  | .ok items => .ok (items.map Item.erase)
  | .error fault => .error fault.erase

lemma Fault.text_erase (f : Fault) : f.erase.text = f.text := by
  cases f <;> rfl

lemma Configuration.feed_erase (c : Configuration) (t : Token) :
    c.erase.feed t.erase = (c.feed t).map Configuration.erase := by
  have hadvance : c.erase.state.advance t.erase = (c.state.advance t).map Configuration.erase :=
    c.state.advance_erase t
  have hallowed : c.erase.state.allowed = c.state.allowed := c.state.allowed_erase
  rw [Configuration.feed, Configuration.feed]
  by_cases h : t.terminal ∈ c.lookahead
  · have h' : t.erase.terminal ∈ c.erase.lookahead := h
    rw [if_pos h, if_pos h', hadvance, hallowed]
    cases c.state.advance t <;> rfl
  · have h' : t.erase.terminal ∉ c.erase.lookahead := h
    rw [if_neg h, if_neg h']
    rfl

lemma Configuration.finish?_erase (c : Configuration) : c.erase.finish? = c.finish?.map (List.map Item.erase) := by
  obtain ⟨lookahead, state⟩ := c
  cases state with
  | items done => simp [Configuration.finish?, Configuration.erase, State.erase]
  | _ => rfl

lemma run_erase (c : Configuration) (last : Position) (ts : List Token) :
    run c.erase .origin (ts.map Token.erase) .finished = eraseParse (run c last ts .finished) := by
  induction ts generalizing c last with
  | nil =>
    rw [List.map_nil, run, run, Configuration.finish?_erase]
    cases c.finish? <;> rfl
  | cons t ts ih =>
    rw [List.map_cons, run, run, Configuration.feed_erase]
    cases c.feed t with
    | ok d => exact ih d t.region.start
    | error expected => rfl

lemma map_erase_of_words {ts us : List Token} (h : ts.map Token.word = us.map Token.word) :
    ts.map Token.erase = us.map Token.erase := by
  let place : Word → Token := fun w => ⟨w.1, w.2, nowhere⟩
  have herase : Token.erase = place ∘ Token.word := rfl
  rw [herase, ← List.map_map, ← List.map_map, h]

lemma Written.parse {words : List Word} {source source' : String} (h : Written words source.toList)
    (h' : Written words source'.toList) : eraseParse (parse source) = eraseParse (parse source') := by
  obtain ⟨ts, hts, hwords⟩ := h.tokens .origin
  obtain ⟨us, hus, hwords'⟩ := h'.tokens .origin
  rw [Description.parse, Description.parse, hts, hus]
  change eraseParse (run .initial .origin ts .finished) = eraseParse (run .initial .origin us .finished)
  rw [← run_erase, ← run_erase, map_erase_of_words (hwords.trans hwords'.symm)]

end Runs

end ShaderLayout.Description
