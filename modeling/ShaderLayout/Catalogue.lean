import ShaderLayout.Text.Quoted

/-!
The catalogue of messages. A message has a code, and a template whose fields are filled in when it
is used.
-/

namespace ShaderLayout

inductive Severity
  | error
  | warning
  deriving DecidableEq, Repr

namespace Severity

def tag : Severity → String
  | error => "error"
  | warning => "warning"

end Severity

inductive Category
  | lexical
  | name
  | type
  | attributes
  | internal
  deriving DecidableEq, Repr

namespace Category

def tag : Category → String
  | lexical => "syntax"
  | name => "name"
  | type => "type"
  | attributes => "attribute"
  | internal => "internal"

end Category

inductive Piece
  | text (s : String)
  | field (key : String)
  deriving DecidableEq, Repr

abbrev Arguments := List (String × String)

namespace Piece

def render (arguments : Arguments) : Piece → String
  | text s => s
  | field key => (arguments.lookup key).getD ""

def source : Piece → String
  | text s => s
  | field key => "\x7b" ++ key ++ "\x7d"

def missing? (arguments : Arguments) : Piece → Option String
  | text _ => none
  | field key => if (arguments.lookup key).isSome then none else some key

end Piece

structure Message where
  code : String
  severity : Severity
  template : List Piece
  category : Category
  explanation : String
  deriving DecidableEq, Repr

namespace Message

def fill (m : Message) (arguments : Arguments) : String :=
  String.join (m.template.map (·.render arguments))

def source (m : Message) : String := String.join (m.template.map Piece.source)

def missing? (m : Message) (arguments : Arguments) : Option String :=
  m.template.findSome? (·.missing? arguments)

end Message

namespace Catalogue

open Piece

def lengthNotInteger : Message :=
  ⟨"CE0001", .error, [text "array ", field "handle", text " (", field "variant", text ") has size constant ",
    field "constant", text " which is not a scalar integer (found ", field "found", text ")"],
    .internal, "Array lengths must be folded to a signed or unsigned integer before layout."⟩

def notLaidOut : Message :=
  ⟨"CE0002", .error, [text "type handle ", field "handle", text " is not in the layout table (", field "count",
    text " layouts)"],
    .internal, "Stale or foreign handle, or a type referencing a type defined after it."⟩

def zeroAlignment : Message :=
  ⟨"CE0003", .error, [text "type ", field "handle", text " (", field "variant", text ") has zero alignment"],
    .internal, "Alignments must be nonzero; zero-width scalars and zero default strides are rejected."⟩

def sizeOverflow : Message :=
  ⟨"CE0004", .error, [text "size of type ", field "handle", text " (", field "variant",
    text ") does not fit in 32 bits: ", field "size"],
    .internal, "Byte sizes are unsigned 32-bit quantities."⟩

def notInArena : Message :=
  ⟨"CE0005", .error, [text "handle ", field "handle", text " is not in this arena (", field "count",
    text " items)"],
    .internal, "Handles are only valid for the arena that produced them."⟩

def malformed : Message :=
  ⟨"CE1001", .error, [text "syntax error: ", field "detail"],
    .lexical, "The description file could not be parsed."⟩

def alreadyDefined : Message :=
  ⟨"CE1002", .error, [text "'", field "name", text "' is already defined"],
    .name, "Every type and constant name must be unique."⟩

def unknownName : Message :=
  ⟨"CE1003", .error, [text "unknown name '", field "name", text "'"],
    .name, "Names must be defined before they are used; forward references are not supported."⟩

def wrongSort : Message :=
  ⟨"CE1004", .error, [text "'", field "name", text "' is a ", field "found", text ", expected a ", field "expected"],
    .name, "A constant was used where a type was expected, or the other way around."⟩

def invalidLiteral : Message :=
  ⟨"CE1005", .error, [text "invalid literal '", field "literal", text "'"],
    .lexical, "Integer literals take an optional 'i' or 'u' suffix; widths must be positive."⟩

def unknownAttribute : Message :=
  ⟨"CE1006", .error, [text "unknown attribute '@", field "attr", text "'"],
    .attributes, "Supported attributes are @align, @size and @stride."⟩

def repeatedAttribute : Message :=
  ⟨"CE1007", .error, [text "attribute '@", field "attr", text "' given more than once"],
    .attributes, "Each attribute may appear once per target."⟩

def misplacedAttribute : Message :=
  ⟨"CE1008", .error, [text "attribute '@", field "attr", text "' is not allowed on ", field "target"],
    .attributes, "@align and @size apply to struct members, @stride applies to arrays."⟩

def invalidAttribute : Message :=
  ⟨"CE1009", .error, [text "invalid value ", field "value", text " for '@", field "attr", text "': ",
    field "reason"],
    .attributes, "Attribute values must be positive; alignments must be powers of two."⟩

def invalidSize : Message :=
  ⟨"CE1010", .error, [text "invalid ", field "what", text " size ", field "size", text " (expected 2, 3 or 4)"],
    .type, "Vectors have 2 to 4 components; matrices have 2 to 4 columns and rows."⟩

def wrongComponent : Message :=
  ⟨"CE1011", .error, [text "component type '", field "name", text "' is not a ", field "expected"],
    .type, "Vector components must be scalars; matrix components must be floats."⟩

def unknownDimension : Message :=
  ⟨"CE1012", .error, [text "unknown image dimension '", field "dim", text "'"],
    .type, "Image dimensions are d1, d2, d3 and cube."⟩

def wrongTarget : Message :=
  ⟨"CE1013", .error, [text "value pointer target must be a scalar or vector, got ", field "found"],
    .type, "value_ptr<...> points at a scalar or vector value."⟩

def emptyStruct : Message :=
  ⟨"CW1001", .warning, [text "struct '", field "name", text "' has no members"],
    .type, "An empty struct has size 0 and alignment 1."⟩

def messages : List Message :=
  [lengthNotInteger, notLaidOut, zeroAlignment, sizeOverflow, notInArena, malformed, alreadyDefined,
    unknownName, wrongSort, invalidLiteral, unknownAttribute, repeatedAttribute, misplacedAttribute,
    invalidAttribute, invalidSize, wrongComponent, unknownDimension, wrongTarget, emptyStruct]

def find? (code : String) : Option Message := messages.find? (·.code = code)

inductive Fault
  | unknownCode (code : String)
  | missingField (key : String) (message : Message)
  deriving DecidableEq, Repr

namespace Fault

def text : Fault → String
  | unknownCode code => "unknown error code: " ++ code
  | missingField key m =>
    "missing text key '" ++ key ++ "' for " ++ m.code ++ " (needed by: " ++
      String.ofList (Text.Quoted.encode m.source.toList) ++ ")"

end Fault

def format (m : Message) (arguments : Arguments) : Except Fault String :=
  match m.missing? arguments with
  | some key => .error (.missingField key m)
  | none => .ok (m.fill arguments)

def formatCode (code : String) (arguments : Arguments) : Except Fault String :=
  match find? code with
  | some m => format m arguments
  | none => .error (.unknownCode code)

end Catalogue

end ShaderLayout
