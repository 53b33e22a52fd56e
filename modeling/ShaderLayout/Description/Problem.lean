import ShaderLayout.Diagnostic
import ShaderLayout.Description.Token

namespace ShaderLayout.Description

inductive Problem
  | malformed (detail : String)
  | alreadyDefined (name : String)
  | unknownName (name : String)
  | wrongSort (name found expected : String)
  | invalidLiteral (literal : String)
  | unknownAttribute (name : String)
  | repeatedAttribute (name : String)
  | misplacedAttribute (name target : String)
  | invalidAttribute (value name reason : String)
  | invalidSize (what size : String)
  | wrongComponent (name expected : String)
  | unknownDimension (name : String)
  | wrongTarget (found : String)
  | emptyStruct (name : String)
  deriving DecidableEq, Repr

namespace Problem

def message : Problem → Message
  | malformed _ => Catalogue.malformed
  | alreadyDefined _ => Catalogue.alreadyDefined
  | unknownName _ => Catalogue.unknownName
  | wrongSort .. => Catalogue.wrongSort
  | invalidLiteral _ => Catalogue.invalidLiteral
  | unknownAttribute _ => Catalogue.unknownAttribute
  | repeatedAttribute _ => Catalogue.repeatedAttribute
  | misplacedAttribute .. => Catalogue.misplacedAttribute
  | invalidAttribute .. => Catalogue.invalidAttribute
  | invalidSize .. => Catalogue.invalidSize
  | wrongComponent .. => Catalogue.wrongComponent
  | unknownDimension _ => Catalogue.unknownDimension
  | wrongTarget _ => Catalogue.wrongTarget
  | emptyStruct _ => Catalogue.emptyStruct

def arguments : Problem → Arguments
  | malformed detail => [("detail", detail)]
  | alreadyDefined name => [("name", name)]
  | unknownName name => [("name", name)]
  | wrongSort name found expected => [("name", name), ("found", found), ("expected", expected)]
  | invalidLiteral literal => [("literal", literal)]
  | unknownAttribute name => [("attr", name)]
  | repeatedAttribute name => [("attr", name)]
  | misplacedAttribute name target => [("attr", name), ("target", target)]
  | invalidAttribute value name reason => [("value", value), ("attr", name), ("reason", reason)]
  | invalidSize what size => [("what", what), ("size", size)]
  | wrongComponent name expected => [("name", name), ("expected", expected)]
  | unknownDimension name => [("dim", name)]
  | wrongTarget found => [("found", found)]
  | emptyStruct name => [("name", name)]

theorem missing?_arguments (p : Problem) : p.message.missing? p.arguments = none := by
  cases p <;> rfl

def isError (p : Problem) : Bool := p.message.severity = .error

end Problem

structure Finding where
  problem : Problem
  region : Region
  deriving DecidableEq, Repr

namespace Region

def span (r : Region) : Span := ⟨r.start.line, r.start.col, r.stop.line, r.stop.col⟩

end Region

namespace Finding

def addTo (r : Report) (f : Finding) : Report :=
  r.emit f.problem.message f.problem.arguments (some f.region.span)

end Finding

end ShaderLayout.Description
