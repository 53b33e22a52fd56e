import ShaderLayout.Number.Integer

/-!
Types whose layout is spelled out: no alignment is implied, every byte is listed.
-/

namespace ShaderLayout

open Number

inductive Padded
  | int (bits : Nat)
  | half
  | float
  | double
  | array (count : Int) (element : Padded)
  | empty
  | packed (elements : List Padded)
  deriving Repr

namespace Padded

def bytes (count : Int) : Padded := array count (int 8)

def fit (type : Padded) (size target : Int) : Padded :=
  if target = size then type
  else if size < target then packed [type, bytes (target - size)]
  else bytes target

mutual

def text : Padded → String
  | int bits => "i" ++ Numeral.text bits
  | half => "half"
  | float => "float"
  | double => "double"
  | array count element => "[" ++ Numeral.text count ++ " x " ++ element.text ++ "]"
  | empty => "\x7b\x7d"
  | packed elements => "<\x7b" ++ String.intercalate ", " (texts elements) ++ "\x7d>"

def texts : List Padded → List String
  | [] => []
  | p :: ps => p.text :: texts ps

end

mutual

def writable : Padded → Bool
  | int bits => decide (Numeral.Writable bits)
  | array count element => decide (Numeral.Writable count) && element.writable
  | packed elements => allWritable elements
  | _ => true

def allWritable : List Padded → Bool
  | [] => true
  | p :: ps => p.writable && allWritable ps

end

def text? (p : Padded) : Option String := if p.writable then some p.text else none

end Padded

end ShaderLayout
