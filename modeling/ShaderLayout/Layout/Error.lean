import ShaderLayout.Catalogue
import ShaderLayout.Constant
import ShaderLayout.GpuType

namespace ShaderLayout

open Number

inductive LayoutError
  | lengthNotInteger (array constant : Handle) (found : ConstantValue)
  | notLaidOut (handle : Handle) (count : Nat)
  | zeroAlignment (handle : Handle) (variant : String)
  | sizeOverflow (handle : Handle) (variant : String) (size : Int)
  | notInArena (handle : Handle) (count : Nat)

namespace LayoutError

def message : LayoutError → Message
  | lengthNotInteger .. => Catalogue.lengthNotInteger
  | notLaidOut .. => Catalogue.notLaidOut
  | zeroAlignment .. => Catalogue.zeroAlignment
  | sizeOverflow .. => Catalogue.sizeOverflow
  | notInArena .. => Catalogue.notInArena

def arguments : LayoutError → Arguments
  | lengthNotInteger array constant found =>
    [("handle", array.text), ("variant", "array"), ("constant", constant.text), ("found", found.text)]
  | notLaidOut h count => [("handle", h.text), ("count", toString count)]
  | zeroAlignment h variant => [("handle", h.text), ("variant", variant)]
  | sizeOverflow h variant size => [("handle", h.text), ("variant", variant), ("size", Numeral.text size)]
  | notInArena h count => [("handle", h.text), ("count", toString count)]

def code (e : LayoutError) : String := e.message.code

def text (e : LayoutError) : String := e.message.fill e.arguments

def Writable : LayoutError → Prop
  | lengthNotInteger array constant found => array.Writable ∧ constant.Writable ∧ found.Writable
  | notLaidOut h _ => h.Writable
  | zeroAlignment h _ => h.Writable
  | sizeOverflow h _ size => h.Writable ∧ Numeral.Writable size
  | notInArena h _ => h.Writable

instance : DecidablePred Writable := fun e => by
  cases e <;> simp only [Writable] <;> infer_instance

end LayoutError

inductive Failure
  | layout (error : LayoutError)
  | numeralTooLong
  | unsupportedFloatWidth (width : Int)
  | negativeWidth
  | placementTooLong
  | endless

namespace Failure

def requireText : Option String → Except Failure String
  | some s => .ok s
  | none => .error numeralTooLong

def text : Failure → String
  | layout e => e.code ++ ": " ++ e.text
  | numeralTooLong =>
    "Exceeds the limit (4300 digits) for integer string conversion; " ++
      "use sys.set_int_max_str_digits() to increase the limit"
  | unsupportedFloatWidth w => "unsupported float width: " ++ Numeral.text w
  | negativeWidth => ""
  | placementTooLong => "Python int too large to convert to C ssize_t"
  | endless => "maximum recursion depth exceeded"

/-- An error whose text cannot be written fails for that reason instead. -/
def ofError (e : LayoutError) : Failure := if e.Writable then layout e else numeralTooLong

end Failure

end ShaderLayout
