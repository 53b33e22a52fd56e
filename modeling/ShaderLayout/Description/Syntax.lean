import ShaderLayout.Description.Token

namespace ShaderLayout.Description

structure Attribute where
  name : Token
  value : Token
  region : Region
  deriving DecidableEq, Repr

inductive Literal
  | integer (token : Token)
  | float (token : Token)
  | boolean (value : Bool) (region : Region)
  deriving DecidableEq, Repr

mutual

inductive TypeExpr
  | mk (attributes : List Attribute) (region : Region) (body : Body)

inductive Body
  | named (name : Token)
  | vector (size component : Token)
  | matrix (columns rows component : Token)
  | pointer (target : TypeExpr)
  | valuePointer (target : TypeExpr)
  | array (element : TypeExpr) (length : Option Token)
  | struct (members : List Member)
  | image (dimension : Token) (flag : Option Token)
  | sampler (comparison : Bool)

inductive Member
  | mk (attributes : List Attribute) (name : Token) (type : TypeExpr)

end

inductive Item
  | constant (region : Region) (name : Token) (value : Literal)
  | type (region : Region) (name : Token) (expr : TypeExpr)

namespace Attribute

def startOf (attributes : List Attribute) (next : Position) : Position :=
  (attributes.head?.map (·.region.start)).getD next

end Attribute

namespace Literal

def region : Literal → Region
  | integer t => t.region
  | float t => t.region
  | boolean _ r => r

end Literal

namespace TypeExpr

def region : TypeExpr → Region
  | mk attributes r _ => ⟨Attribute.startOf attributes r.start, r.stop⟩

end TypeExpr

namespace Member

def region : Member → Region
  | mk attributes name type => ⟨Attribute.startOf attributes name.region.start, type.region.stop⟩

end Member

namespace Item

def region : Item → Region
  | constant r _ _ => r
  | type r _ _ => r

def name : Item → Token
  | constant _ n _ => n
  | type _ n _ => n

end Item

end ShaderLayout.Description
