import ShaderLayout.Description.Syntax

namespace ShaderLayout.Description

inductive Outline
  | leaf (token : Token)
  | rule (name : String) (region : Option Region) (children : List Outline)

namespace Outline

def ofAttribute (a : Attribute) : Outline :=
  rule "attribute" (some a.region) [leaf a.name, leaf a.value]

def ofLiteral : Literal → Outline
  | .integer t => rule "int_lit" (some t.region) [leaf t]
  | .float t => rule "float_lit" (some t.region) [leaf t]
  | .boolean true r => rule "true_lit" (some r) []
  | .boolean false r => rule "false_lit" (some r) []

def ofLength : Option Token → List Outline
  | none => []
  | some t => [rule "array_len" (some t.region) [leaf t]]

mutual

def ofExpr : TypeExpr → Outline
  | .mk attributes region body =>
    rule "type_expr" (some (TypeExpr.mk attributes region body).region)
      (attributes.map ofAttribute ++ [ofBody region body])

def ofBody (region : Region) : Body → Outline
  | .named name => rule "named_t" (some region) [leaf name]
  | .vector size component => rule "vector_t" (some region) [leaf size, leaf component]
  | .matrix columns rows component =>
    rule "matrix_t" (some region) [leaf columns, leaf rows, leaf component]
  | .pointer target => rule "pointer_t" (some region) [ofExpr target]
  | .valuePointer target => rule "value_pointer_t" (some region) [ofExpr target]
  | .array element length => rule "array_t" (some region) (ofExpr element :: ofLength length)
  | .struct members => rule "struct_t" (some region) (ofMembers members)
  | .image dimension flag => rule "image_t" (some region) (leaf dimension :: flag.toList.map leaf)
  | .sampler false => rule "sampler_t" (some region) []
  | .sampler true => rule "sampler_comparison_t" (some region) []

def ofMember : Member → Outline
  | .mk attributes name type =>
    rule "member" (some (Member.mk attributes name type).region)
      (attributes.map ofAttribute ++ [leaf name, ofExpr type])

def ofMembers : List Member → List Outline
  | [] => []
  | m :: ms => ofMember m :: ofMembers ms

end

def ofItem : Item → Outline
  | .constant region name value => rule "const_def" (some region) [leaf name, ofLiteral value]
  | .type region name expr => rule "type_def" (some region) [leaf name, ofExpr expr]

def regionOf (items : List Item) : Option Region :=
  match items.head?, items.getLast? with
  | some a, some b => some ⟨a.region.start, b.region.stop⟩
  | _, _ => none

def ofItems (items : List Item) : Outline := rule "start" (regionOf items) (items.map ofItem)

def indent (level : Nat) : String := String.ofList (List.replicate (2 * level) ' ')

mutual

def render (level : Nat) : Outline → String
  | leaf t => indent level ++ t.text ++ "\n"
  | rule name _ [leaf t] => indent level ++ name ++ "\t" ++ t.text ++ "\n"
  | rule name _ children => indent level ++ name ++ "\n" ++ renderAll (level + 1) children

def renderAll (level : Nat) : List Outline → String
  | [] => ""
  | o :: os => render level o ++ renderAll level os

end

end Outline

end ShaderLayout.Description
