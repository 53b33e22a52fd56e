import ShaderLayout.Catalogue

namespace ShaderLayout

structure Span where
  line : Int
  col : Int
  endLine : Int
  endCol : Int
  deriving DecidableEq, Repr

inductive Kind
  | error
  | warning
  | other (tag : String)
  deriving DecidableEq, Repr

namespace Kind

def tag : Kind → String
  | error => "error"
  | warning => "warning"
  | other s => s

def ofTag (s : String) : Kind :=
  if s = "error" then error else if s = "warning" then warning else other s

def ofSeverity : Severity → Kind
  | .error => error
  | .warning => warning

end Kind

structure Diagnostic where
  kind : Kind
  code : String
  message : String
  span : Option Span
  filename : Option String
  deriving DecidableEq, Repr

structure Report where
  source : Option String
  filename : String
  items : List Diagnostic
  deriving DecidableEq, Repr

namespace Report

def empty (source : Option String) (filename : String) : Report := ⟨source, filename, []⟩

def add (r : Report) (kind : Kind) (code message : String) (span : Option Span) : Report :=
  { r with items := r.items ++ [⟨kind, code, message, span, some r.filename⟩] }

def emit (r : Report) (m : Message) (arguments : Arguments) (span : Option Span) : Report :=
  r.add (.ofSeverity m.severity) m.code (m.fill arguments) span

def hasErrors (r : Report) : Bool := r.items.any (·.kind = .error)

def hasWarnings (r : Report) : Bool := r.items.any (·.kind = .warning)

def codes (r : Report) : List String := r.items.map (·.code)

end Report

end ShaderLayout
