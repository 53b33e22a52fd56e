import ShaderLayout.Description.Problem
import ShaderLayout.Description.Syntax
import ShaderLayout.Number.Integer

namespace ShaderLayout.Description

open Number

inductive AttributeKind
  | align
  | size
  | stride
  deriving DecidableEq, Repr

namespace AttributeKind

def ofName? : String → Option AttributeKind
  | "align" => some align
  | "size" => some size
  | "stride" => some stride
  | _ => none

end AttributeKind

abbrev Accepted := List (AttributeKind × Int)

namespace Attribute

def isPowerOfTwo (n : Int) : Bool := 0 < n && Bits.land n (n - 1) == 0

def value? (kind : AttributeKind) (a : Attribute) : Except Problem Int :=
  match Numeral.literal? a.value.text with
  | none => .error (.invalidAttribute a.value.text a.name.text "must be positive")
  | some (n, _) =>
    if n ≤ 0 then .error (.invalidAttribute a.value.text a.name.text "must be positive")
    else if kind = .align ∧ isPowerOfTwo n = false then
      .error (.invalidAttribute (Numeral.text n) a.name.text "must be a power of two")
    else .ok n

def judge (allowed : List AttributeKind) (target : String) (accepted : Accepted) (a : Attribute) :
    Except Problem (AttributeKind × Int) :=
  match AttributeKind.ofName? a.name.text with
  | none => .error (.unknownAttribute a.name.text)
  | some kind =>
    if kind ∉ allowed then .error (.misplacedAttribute a.name.text target)
    else if (accepted.lookup kind).isSome then .error (.repeatedAttribute a.name.text)
    else (a.value? kind).map (kind, ·)

def judgeAll (allowed : List AttributeKind) (target : String) :
    Accepted → List Attribute → Accepted × List Finding
  | accepted, [] => (accepted, [])
  | accepted, a :: rest =>
    match judge allowed target accepted a with
    | .ok entry => judgeAll allowed target (accepted ++ [entry]) rest
    | .error problem =>
      let (accepted, findings) := judgeAll allowed target accepted rest
      (accepted, ⟨problem, a.region⟩ :: findings)

end Attribute

end ShaderLayout.Description
