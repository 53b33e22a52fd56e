import ShaderLayout.Description.Lexer
import ShaderLayout.Description.Syntax

/-!
Reading the syntax of a description, one token at a time. The machine holds what is still open, and
the terminals that may come next. After a construct is complete, the terminals that may follow it
anywhere are tried before those that may follow it here.
-/

namespace ShaderLayout.Description

/-- What is open around a type expression, innermost first. Finished items and members are kept
last first. -/
inductive Context
  | definition (done : List Item) (start : Position) (name : Token)
  | pointer (outer : Context) (attributes : List Attribute) (start : Position)
  | valuePointer (outer : Context) (attributes : List Attribute) (start : Position)
  | array (outer : Context) (attributes : List Attribute) (start : Position)
  | member (outer : Context) (attributes : List Attribute) (start : Position) (members : List Member)
      (own : List Attribute) (name : Token)

structure Opening where
  context : Context
  attributes : List Attribute
  start : Position

inductive Owner
  | expression (context : Context) (attributes : List Attribute)
  | member (opening : Opening) (members : List Member) (attributes : List Attribute)

inductive State
  | items (done : List Item)
  | expect (terminal : Terminal) (next : State)
  | constName (done : List Item) (start : Position)
  | constValue (done : List Item) (start : Position) (name : Token)
  | constEnd (done : List Item) (start : Position) (name : Token) (value : Literal)
  | typeName (done : List Item) (start : Position)
  | typeEnd (done : List Item) (start : Position) (name : Token) (expr : TypeExpr)
  | expression (context : Context) (attributes : List Attribute)
  | attributeName (owner : Owner) (start : Position)
  | attributeValue (owner : Owner) (start : Position) (name : Token)
  | attributeEnd (owner : Owner) (start : Position) (name value : Token)
  | vectorSize (opening : Opening)
  | vectorComponent (opening : Opening) (size : Token)
  | matrixColumns (opening : Opening)
  | matrixRows (opening : Opening) (columns : Token)
  | matrixComponent (opening : Opening) (columns rows : Token)
  | arrayRest (opening : Opening) (element : TypeExpr)
  | arrayLength (opening : Opening) (element : TypeExpr)
  | imageDimension (opening : Opening)
  | imageRest (opening : Opening) (dimension : Token)
  | imageFlag (opening : Opening) (dimension : Token)
  | bodyEnd (opening : Opening) (body : Body)
  | member (opening : Opening) (members : List Member) (attributes : List Attribute)
  | memberEnd (opening : Opening) (members : List Member)

def expressionStart : List Terminal :=
  [.atSign, .array, .image, .mat, .name, .ptr, .sampler, .samplerComparison, .struct, .valuePtr, .vec]

def expressionFollow : List Terminal := [.comma, .moreThan, .rightBrace, .semicolon]

namespace State

def allowed : State → List Terminal
  | items _ => [.endOfInput, .const, .type]
  | expect t _ => [t]
  | constName .. | typeName .. => [.name]
  | constValue .. => [.falseWord, .float, .integer, .trueWord]
  | constEnd .. | typeEnd .. => [.semicolon]
  | expression .. => expressionStart
  | attributeName .. => [.name]
  | attributeValue .. => [.integer]
  | attributeEnd .. => [.rightParen]
  | vectorSize .. | matrixColumns .. | matrixRows .. => [.integer]
  | vectorComponent .. | matrixComponent .. => [.name]
  | arrayRest .. | imageRest .. => [.comma, .moreThan]
  | arrayLength .. => [.integer, .name]
  | imageDimension .. | imageFlag .. => [.name]
  | bodyEnd .. => [.moreThan]
  | member _ _ [] => [.atSign, .name, .rightBrace]
  | member _ _ (_ :: _) => [.atSign, .name]
  | memberEnd .. => [.comma, .rightBrace]

end State

/-- A state together with the terminals that are tried first. -/
structure Configuration where
  lookahead : List Terminal
  state : State

namespace Configuration

def plain (s : State) : Configuration := ⟨s.allowed, s⟩

end Configuration

namespace Owner

def addAttribute (a : Attribute) : Owner → State
  | expression context attributes => .expression context (attributes ++ [a])
  | member opening members attributes => .member opening members (attributes ++ [a])

end Owner

namespace Context

def resume : Context → TypeExpr → State
  | definition done start name, e => .typeEnd done start name e
  | pointer outer attributes start, e => .bodyEnd ⟨outer, attributes, start⟩ (.pointer e)
  | valuePointer outer attributes start, e => .bodyEnd ⟨outer, attributes, start⟩ (.valuePointer e)
  | array outer attributes start, e => .arrayRest ⟨outer, attributes, start⟩ e
  | member outer attributes start members own name, e =>
    .memberEnd ⟨outer, attributes, start⟩ (.mk own name e :: members)

end Context

namespace Opening

def close (o : Opening) (stop : Position) (body : Body) : Configuration :=
  ⟨expressionFollow, o.context.resume (.mk o.attributes ⟨o.start, stop⟩ body)⟩

end Opening

namespace State

open Configuration

def startExpression (context : Context) (attributes : List Attribute) (t : Token) : Option Configuration :=
  let opening : Opening := ⟨context, attributes, t.region.start⟩
  match t.terminal with
  | .atSign => some (plain (.attributeName (.expression context attributes) t.region.start))
  | .name => some (opening.close t.region.stop (.named t))
  | .vec => some (plain (.expect .lessThan (.vectorSize opening)))
  | .mat => some (plain (.expect .lessThan (.matrixColumns opening)))
  | .ptr => some (plain (.expect .lessThan (.expression (.pointer context attributes t.region.start) [])))
  | .valuePtr =>
    some (plain (.expect .lessThan (.expression (.valuePointer context attributes t.region.start) [])))
  | .array => some (plain (.expect .lessThan (.expression (.array context attributes t.region.start) [])))
  | .struct => some (plain (.expect .leftBrace (.member opening [] [])))
  | .image => some (plain (.expect .lessThan (.imageDimension opening)))
  | .sampler => some (opening.close t.region.stop (.sampler false))
  | .samplerComparison => some (opening.close t.region.stop (.sampler true))
  | _ => none

def startMember (o : Opening) (members : List Member) (attributes : List Attribute) (t : Token) :
    Option Configuration :=
  match t.terminal, attributes with
  | .atSign, _ => some (plain (.attributeName (.member o members attributes) t.region.start))
  | .name, _ =>
    some (plain (.expect .colon
      (.expression (.member o.context o.attributes o.start members attributes t) [])))
  | .rightBrace, [] => some (o.close t.region.stop (.struct members.reverse))
  | _, _ => none

def advance (s : State) (t : Token) : Option Configuration :=
  match s with
  | items done =>
    match t.terminal with
    | .const => some (plain (.constName done t.region.start))
    | .type => some (plain (.typeName done t.region.start))
    | _ => none
  | expect terminal next => if t.terminal = terminal then some (plain next) else none
  | constName done start =>
    if t.terminal = .name then some (plain (.expect .equal (.constValue done start t))) else none
  | constValue done start name =>
    match t.terminal with
    | .integer => some (plain (.constEnd done start name (.integer t)))
    | .float => some (plain (.constEnd done start name (.float t)))
    | .trueWord => some (plain (.constEnd done start name (.boolean true t.region)))
    | .falseWord => some (plain (.constEnd done start name (.boolean false t.region)))
    | _ => none
  | constEnd done start name value =>
    if t.terminal = .semicolon then
      some (plain (.items (.constant ⟨start, t.region.stop⟩ name value :: done)))
    else none
  | typeName done start =>
    if t.terminal = .name then
      some (plain (.expect .equal (.expression (.definition done start t) [])))
    else none
  | typeEnd done start name expr =>
    if t.terminal = .semicolon then
      some (plain (.items (.type ⟨start, t.region.stop⟩ name expr :: done)))
    else none
  | expression context attributes => startExpression context attributes t
  | attributeName owner start =>
    if t.terminal = .name then some (plain (.expect .leftParen (.attributeValue owner start t))) else none
  | attributeValue owner start name =>
    if t.terminal = .integer then some (plain (.attributeEnd owner start name t)) else none
  | attributeEnd owner start name value =>
    if t.terminal = .rightParen then
      some ⟨expressionStart, owner.addAttribute ⟨name, value, ⟨start, t.region.stop⟩⟩⟩
    else none
  | vectorSize o =>
    if t.terminal = .integer then some (plain (.expect .comma (.vectorComponent o t))) else none
  | vectorComponent o size =>
    if t.terminal = .name then some (plain (.bodyEnd o (.vector size t))) else none
  | matrixColumns o =>
    if t.terminal = .integer then some (plain (.expect .comma (.matrixRows o t))) else none
  | matrixRows o columns =>
    if t.terminal = .integer then some (plain (.expect .comma (.matrixComponent o columns t))) else none
  | matrixComponent o columns rows =>
    if t.terminal = .name then some (plain (.bodyEnd o (.matrix columns rows t))) else none
  | arrayRest o element =>
    match t.terminal with
    | .comma => some (plain (.arrayLength o element))
    | .moreThan => some (o.close t.region.stop (.array element none))
    | _ => none
  | arrayLength o element =>
    if t.terminal = .integer ∨ t.terminal = .name then some (plain (.bodyEnd o (.array element (some t))))
    else none
  | imageDimension o => if t.terminal = .name then some (plain (.imageRest o t)) else none
  | imageRest o dimension =>
    match t.terminal with
    | .comma => some (plain (.imageFlag o dimension))
    | .moreThan => some (o.close t.region.stop (.image dimension none))
    | _ => none
  | imageFlag o dimension =>
    if t.terminal = .name then some (plain (.bodyEnd o (.image dimension (some t)))) else none
  | bodyEnd o body => if t.terminal = .moreThan then some (o.close t.region.stop body) else none
  | member o members attributes => startMember o members attributes t
  | memberEnd o members =>
    match t.terminal with
    | .comma => some (plain (.member o members []))
    | .rightBrace => some (o.close t.region.stop (.struct members.reverse))
    | _ => none

end State

namespace Configuration

def initial : Configuration := plain (.items [])

def feed (c : Configuration) (t : Token) : Except (List Terminal) Configuration :=
  if t.terminal ∈ c.lookahead then
    match c.state.advance t with
    | some d => .ok d
    | none => .error c.state.allowed
  else .error c.lookahead

def finish? (c : Configuration) : Option (List Item) :=
  match c.state with
  | .items done => some done.reverse
  | _ => none

end Configuration

inductive Fault
  | unexpectedEnd (position : Position)
  | unexpectedToken (token : Token) (expected : List Terminal)
  | strayCharacter (c : Char) (position : Position)
  deriving DecidableEq, Repr

namespace Fault

def position : Fault → Position
  | unexpectedEnd p => p
  | unexpectedToken t _ => t.region.start
  | strayCharacter _ p => p

def labels (expected : List Terminal) : List String :=
  (expected.map Terminal.label).mergeSort (fun a b => decide (a ≤ b))

def text : Fault → String
  | unexpectedEnd _ => "unexpected end of input"
  | unexpectedToken t expected =>
    "unexpected '" ++ t.text ++ "', expected one of: " ++ String.intercalate ", " (labels expected)
  | strayCharacter c _ => "unexpected character '" ++ c.toString ++ "'"

end Fault

def run (c : Configuration) (last : Position) : List Token → Ending → Except Fault (List Item)
  | [], .stray x p => .error (.strayCharacter x p)
  | [], .finished =>
    match c.finish? with
    | some items => .ok items
    | none => .error (.unexpectedEnd last)
  | t :: ts, e =>
    match c.feed t with
    | .ok d => run d t.region.start ts e
    | .error expected => .error (.unexpectedToken t expected)

def parse (source : String) : Except Fault (List Item) :=
  let (ts, e) := tokens .origin source.toList
  run .initial .origin ts e

end ShaderLayout.Description
