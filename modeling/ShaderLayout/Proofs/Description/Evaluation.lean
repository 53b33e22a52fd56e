import Mathlib
import ShaderLayout.Description.Table
import ShaderLayout.Layout.Table

/-!
Layouts read off the syntax. `eval` gives the layout of a type expression from those of the names
defined before it, with no table, no handles and no sharing; `occurrences` lists every type expression
of a description, the inner ones first, together with the definitions before it.
-/

namespace ShaderLayout.Description

open Number Layout

/-- Why a type expression has no layout. No expression of an accepted description is undefined. -/
inductive Cause
  | undefined
  | lengthNotInteger
  | zeroAlignment
  | sizeOverflow (size : Int)
  deriving DecidableEq, Repr

abbrev Outcome := Except Cause Layout

structure Meaning where
  layout : Outcome
  scalar? : Option Scalar

structure Env where
  types : List (String × Meaning)
  constants : List (String × Option Int)

def checked (o : Outcome) : Outcome := do
  let l ← o
  if l.alignment = 0 then .error .zeroAlignment
  else if 2 ^ 32 - 1 < l.size then .error (.sizeOverflow l.size)
  else .ok l

def Meaning.of (o : Outcome) : Meaning := ⟨checked o, none⟩

namespace Attribute

def given? (kind : AttributeKind) (as : List Attribute) : Option Int :=
  (as.find? fun a => AttributeKind.ofName? a.name.text = some kind).bind fun a =>
    (Numeral.literal? a.value.text).map Prod.fst

end Attribute

namespace Literal

def integer? : Literal → Option Int
  | integer t => (Numeral.literal? t.text).map Prod.fst
  | float _ => none
  | boolean .. => none

end Literal

namespace Env

def empty : Env := ⟨[], []⟩

def meaning (env : Env) (name : String) : Meaning :=
  match env.types.lookup name, predeclared.lookup name with
  | some m, _ => m
  | none, some s => ⟨.ok ⟨s.width, s.width⟩, some s⟩
  | none, none => ⟨.error .undefined, none⟩

def component (env : Env) (name : Token) : Except Cause Scalar :=
  match (env.meaning name.text).scalar? with
  | some s => .ok s
  | none => .error .undefined

def wrapped : Option Int → Except Cause Int
  | some n => .ok (n % 2 ^ 32)
  | none => .error .lengthNotInteger

def count (env : Env) : Option Token → Except Cause Int
  | none => .ok 0
  | some t =>
    if t.terminal = .name then
      match env.constants.lookup t.text with
      | some n => wrapped n
      | none => .error .undefined
    else
      match Numeral.literal? t.text with
      | some (n, _) => wrapped (some n)
      | none => .error .undefined

end Env

def sides (t : Token) : Except Cause VectorSize :=
  match (Numeral.literal? t.text).bind fun p => VectorSize.ofInt? p.1 with
  | some n => .ok n
  | none => .error .undefined

mutual

def eval (env : Env) : TypeExpr → Meaning
  | .mk as _ b => evalBody env as b

def evalBody (env : Env) (as : List Attribute) : Body → Meaning
  | .named n => env.meaning n.text
  | .vector size c => .of do
    let n ← sides size
    let s ← env.component c
    return ⟨n.toNat * s.width, n.slots * s.width⟩
  | .matrix columns rows c => .of do
    let n ← sides columns
    let m ← sides rows
    let s ← env.component c
    return ⟨n.toNat * m.toNat * s.width, m.slots * s.width⟩
  | .pointer _ => .of (.ok ⟨4, 1⟩)
  | .valuePointer _ => .of (.ok ⟨4, 1⟩)
  | .array element length => .of do
    let n ← env.count length
    match Attribute.given? .stride as with
    | some s => return ⟨n * s, s⟩
    | none =>
      let l ← (eval env element).layout
      let s := roundUp l.alignment l.size
      return ⟨n * s, s⟩
  | .struct ms => .of do
    let (total, alignment) ← evalMembers env 0 1 ms
    return ⟨roundUp alignment total, alignment⟩
  | .image .. => .of (.ok ⟨0, 1⟩)
  | .sampler _ => .of (.ok ⟨0, 1⟩)

def evalMembers (env : Env) : Int → Int → List Member → Except Cause (Int × Int)
  | total, alignment, [] => .ok (total, alignment)
  | total, alignment, .mk as _ type :: rest => do
    let l ← (eval env type).layout
    let own := (Attribute.given? .align as).getD l.alignment
    let stop := roundUp own total + (Attribute.given? .size as).getD l.size
    evalMembers env stop (max alignment own) rest

end

mutual

def TypeExpr.parts : TypeExpr → List TypeExpr
  | .mk as region b => b.parts ++ [.mk as region b]

def Body.parts : Body → List TypeExpr
  | .pointer target => target.parts
  | .valuePointer target => target.parts
  | .array element _ => element.parts
  | .struct ms => memberParts ms
  | _ => []

def memberParts : List Member → List TypeExpr
  | [] => []
  | .mk _ _ type :: rest => type.parts ++ memberParts rest

end

namespace Item

def parts : Item → List TypeExpr
  | constant .. => []
  | type _ _ expr => expr.parts

end Item

namespace Env

def define (env : Env) : Item → Env
  | .constant _ name value => { env with constants := env.constants ++ [(name.text, value.integer?)] }
  | .type _ name expr => { env with types := env.types ++ [(name.text, eval env expr)] }

def after (is : List Item) : Env := is.foldl define empty

end Env

/-- The type expressions of some items, each with the definitions before its item. -/
def occurrences (env : Env) : List Item → List (Env × TypeExpr)
  | [] => []
  | i :: rest => i.parts.map (env, ·) ++ occurrences (env.define i) rest

def evalAll (env : Env) (es : List TypeExpr) : List Outcome := es.map fun e => (eval env e).layout

def cause? : Outcome → Option Cause
  | .ok _ => none
  | .error c => some c

def firstCause (os : List Outcome) : Option Cause := os.findSome? cause?

def causeOf (env : Env) (is : List Item) : Option Cause :=
  firstCause ((occurrences env is).map fun p => (eval p.1 p.2).layout)

end ShaderLayout.Description
