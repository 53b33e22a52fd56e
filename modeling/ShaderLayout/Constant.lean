import ShaderLayout.Arena
import ShaderLayout.Number.Decimal
import ShaderLayout.Number.Integer

/-!
Constants of a description. Floats are compared as numbers, so that zero equals negative zero; a not-a-number equals
only the very object that it is.
-/

namespace ShaderLayout

open Number

/-- A floating-point number, and which object holds it. -/
structure FloatObject where
  value : Float
  object : Nat

namespace FloatObject

def isNaN (x : FloatObject) : Bool := x.value.isNaN

instance : BEq FloatObject where
  beq x y := x.value == y.value || (x.isNaN && y.isNaN && x.object == y.object)

end FloatObject

inductive ScalarValue
  | sint (value : Int)
  | uint (value : Int)
  | float (value : FloatObject)
  | bool (value : Bool)
  deriving BEq

inductive ConstantValue
  | scalar (width : Int) (value : ScalarValue)
  | composite (type : Handle) (components : List Handle)
  deriving BEq

structure Constant where
  value : ConstantValue
  name : Option String
  deriving BEq

namespace ScalarValue

def text : ScalarValue → String
  | sint n => "sint(" ++ Numeral.text n ++ ")"
  | uint n => "uint(" ++ Numeral.text n ++ ")"
  | float x => "float(" ++ Decimal.text x.value ++ ")"
  | bool b => "bool(" ++ (if b then "True" else "False") ++ ")"

def Writable : ScalarValue → Prop
  | sint n => Numeral.Writable n
  | uint n => Numeral.Writable n
  | _ => True

instance : DecidablePred Writable := fun v => by
  cases v <;> simp only [Writable] <;> infer_instance

end ScalarValue

namespace ConstantValue

def text : ConstantValue → String
  | scalar _ v => v.text
  | composite t _ => "composite<" ++ t.text ++ ">"

def Writable : ConstantValue → Prop
  | scalar _ v => v.Writable
  | composite t _ => t.Writable

instance : DecidablePred Writable := fun v => by
  cases v <;> simp only [Writable] <;> infer_instance

def text? (v : ConstantValue) : Option String := if v.Writable then some v.text else none

def integer? : ConstantValue → Option Int
  | scalar _ (.sint n) => some n
  | scalar _ (.uint n) => some n
  | _ => none

end ConstantValue

namespace Constant

def text? (c : Constant) : Option String :=
  match c.name with
  | none => c.value.text?
  | some n => if n = "" then c.value.text? else some n

end Constant

end ShaderLayout
