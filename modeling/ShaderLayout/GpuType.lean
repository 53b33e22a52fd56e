import ShaderLayout.Constant

namespace ShaderLayout

open Number

inductive ScalarKind
  | sint
  | uint
  | float
  | bool
  deriving DecidableEq, Repr

structure Scalar where
  kind : ScalarKind
  width : Int
  deriving DecidableEq, Repr

inductive VectorSize
  | two
  | three
  | four
  deriving DecidableEq, Repr

inductive ImageDimension
  | d1
  | d2
  | d3
  | cube
  deriving DecidableEq, Repr

inductive ArrayLength
  | dynamic
  | constant (handle : Handle)
  deriving DecidableEq, Repr

structure StructMember where
  type : Handle
  name : Option String
  align : Option Int
  size : Option Int
  deriving DecidableEq, Repr

inductive Shape
  | scalar (scalar : Scalar)
  | vector (size : VectorSize) (component : Scalar)
  | matrix (columns rows : VectorSize) (width : Int)
  | pointer (base : Handle)
  | valuePointer (size : Option VectorSize) (target : Scalar)
  | array (base : Handle) (length : ArrayLength) (stride : Option Int)
  | struct (members : List StructMember)
  | image (dimension : ImageDimension) (arrayed : Bool)
  | sampler (comparison : Bool)
  deriving DecidableEq, Repr

structure GpuType where
  shape : Shape
  name : Option String
  deriving DecidableEq, Repr

namespace ScalarKind

def all : List ScalarKind := [sint, uint, float, bool]

def tag : ScalarKind → String
  | sint => "sint"
  | uint => "uint"
  | float => "float"
  | bool => "bool"

def ofTag? (s : String) : Option ScalarKind := all.find? (·.tag = s)

def letter : ScalarKind → String
  | sint => "i"
  | uint => "u"
  | float => "f"
  | bool => "bool"

end ScalarKind

namespace VectorSize

def toNat : VectorSize → Nat
  | two => 2
  | three => 3
  | four => 4

def ofInt? (n : Int) : Option VectorSize :=
  if n = 2 then some two else if n = 3 then some three else if n = 4 then some four else none

def text (s : VectorSize) : String := toString s.toNat

def slots : VectorSize → Nat
  | two => 2
  | three => 4
  | four => 4

end VectorSize

namespace ImageDimension

def all : List ImageDimension := [d1, d2, d3, cube]

def tag : ImageDimension → String
  | d1 => "d1"
  | d2 => "d2"
  | d3 => "d3"
  | cube => "cube"

def ofTag? (s : String) : Option ImageDimension := all.find? (·.tag = s)

end ImageDimension

namespace Scalar

def text (s : Scalar) : String :=
  match s.kind with
  | .bool => "bool"
  | k => k.letter ++ Numeral.text (s.width * 8)

def Writable (s : Scalar) : Prop := s.kind = .bool ∨ Numeral.Writable (s.width * 8)

instance : DecidablePred Writable := fun s =>
  inferInstanceAs (Decidable (s.kind = .bool ∨ Numeral.Writable (s.width * 8)))

end Scalar

namespace ArrayLength

def text : ArrayLength → String
  | dynamic => "dynamic"
  | constant h => "const" ++ h.text

end ArrayLength

namespace Shape

def tag : Shape → String
  | scalar _ => "scalar"
  | vector .. => "vector"
  | matrix .. => "matrix"
  | pointer _ => "pointer"
  | valuePointer .. => "value_pointer"
  | array .. => "array"
  | struct _ => "struct"
  | image .. => "image"
  | sampler _ => "sampler"

def text : Shape → String
  | scalar s => s.text
  | vector n c => "vec" ++ n.text ++ "<" ++ c.text ++ ">"
  | matrix c r w => "mat" ++ c.text ++ "x" ++ r.text ++ "<f" ++ Numeral.text (w * 8) ++ ">"
  | pointer base => "ptr<" ++ base.text ++ ">"
  | valuePointer none t => "ptr<" ++ t.text ++ ">"
  | valuePointer (some n) t => "ptr<vec" ++ n.text ++ "<" ++ t.text ++ ">>"
  | array base .dynamic _ => "array<" ++ base.text ++ ">"
  | array base length _ => "array<" ++ base.text ++ ", " ++ length.text ++ ">"
  | struct members => "struct(" ++ toString members.length ++ " members)"
  | image d arrayed => "image_" ++ d.tag ++ if arrayed then "_array" else ""
  | sampler comparison => if comparison then "sampler_comparison" else "sampler"

end Shape

namespace GpuType

def text (t : GpuType) : String :=
  match t.name with
  | none => t.shape.text
  | some n => if n = "" then t.shape.text else n

end GpuType

section Writing

variable (types : Arena GpuType) (constants : Arena Constant)

def ArrayLength.Writable : ArrayLength → Prop
  | dynamic => True
  | constant h => constants.Writes h

instance : DecidablePred (ArrayLength.Writable constants) := fun n => by
  cases n <;> simp only [ArrayLength.Writable] <;> infer_instance

namespace Shape

def Writable : Shape → Prop
  | scalar s => s.Writable
  | vector _ c => c.Writable
  | matrix _ _ w => Numeral.Writable (w * 8)
  | pointer base => types.Writes base
  | valuePointer _ t => t.Writable
  | array base length _ => types.Writes base ∧ length.Writable constants
  | _ => True

instance : DecidablePred (Writable types constants) := fun s => by
  cases s <;> simp only [Writable] <;> infer_instance

def text? (s : Shape) : Option String := if s.Writable types constants then some s.text else none

end Shape

def GpuType.text? (t : GpuType) : Option String :=
  match t.name with
  | none => t.shape.text? types constants
  | some n => if n = "" then t.shape.text? types constants else some n

end Writing

end ShaderLayout
