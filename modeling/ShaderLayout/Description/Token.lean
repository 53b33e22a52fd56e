namespace ShaderLayout.Description

/-- A place between two characters. Lines and columns count from one; only `'\n'` ends a line. -/
structure Position where
  line : Nat
  col : Nat
  deriving DecidableEq, Repr, Inhabited

namespace Position

def origin : Position := ⟨1, 1⟩

def step (p : Position) (c : Char) : Position :=
  if c = '\n' then ⟨p.line + 1, 1⟩ else ⟨p.line, p.col + 1⟩

def after (p : Position) (s : List Char) : Position := s.foldl step p

@[simp] theorem after_nil (p : Position) : p.after [] = p := rfl

@[simp] theorem after_append (p : Position) (s t : List Char) : p.after (s ++ t) = (p.after s).after t := by
  simp [after]

end Position

structure Region where
  start : Position
  stop : Position
  deriving DecidableEq, Repr, Inhabited

inductive Terminal
  | name
  | integer
  | float
  | const
  | type
  | trueWord
  | falseWord
  | vec
  | mat
  | ptr
  | valuePtr
  | array
  | struct
  | image
  | sampler
  | samplerComparison
  | equal
  | semicolon
  | atSign
  | leftParen
  | rightParen
  | comma
  | lessThan
  | moreThan
  | leftBrace
  | rightBrace
  | colon
  | endOfInput
  deriving DecidableEq, Repr

namespace Terminal

def label : Terminal → String
  | name => "NAME"
  | integer => "INT_LIT"
  | float => "FLOAT_LIT"
  | const => "CONST"
  | type => "TYPE"
  | trueWord => "TRUE"
  | falseWord => "FALSE"
  | vec => "VEC"
  | mat => "MAT"
  | ptr => "PTR"
  | valuePtr => "VALUE_PTR"
  | array => "ARRAY"
  | struct => "STRUCT"
  | image => "IMAGE"
  | sampler => "SAMPLER"
  | samplerComparison => "SAMPLER_COMPARISON"
  | equal => "EQUAL"
  | semicolon => "SEMICOLON"
  | atSign => "AT"
  | leftParen => "LPAR"
  | rightParen => "RPAR"
  | comma => "COMMA"
  | lessThan => "LESSTHAN"
  | moreThan => "MORETHAN"
  | leftBrace => "LBRACE"
  | rightBrace => "RBRACE"
  | colon => "COLON"
  | endOfInput => "$END"

def ofWord : String → Terminal
  | "const" => const
  | "type" => type
  | "true" => trueWord
  | "false" => falseWord
  | "vec" => vec
  | "mat" => mat
  | "ptr" => ptr
  | "value_ptr" => valuePtr
  | "array" => array
  | "struct" => struct
  | "image" => image
  | "sampler" => sampler
  | "sampler_comparison" => samplerComparison
  | _ => name

def ofMark? : Char → Option Terminal
  | '=' => some equal
  | ';' => some semicolon
  | '@' => some atSign
  | '(' => some leftParen
  | ')' => some rightParen
  | ',' => some comma
  | '<' => some lessThan
  | '>' => some moreThan
  | '{' => some leftBrace
  | '}' => some rightBrace
  | ':' => some colon
  | _ => none

end Terminal

structure Token where
  terminal : Terminal
  text : String
  region : Region
  deriving DecidableEq, Repr

end ShaderLayout.Description
