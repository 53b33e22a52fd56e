import ShaderLayout.Number.Integer

namespace ShaderLayout.Text

open Number

inductive Json
  | null
  | number (n : Int)
  | index (n : Nat)
  | string (s : String)
  | array (items : List Json)
  | object (fields : List (String × Json))

namespace Json

def escapeUnit (n : Nat) : List Char := '\\' :: 'u' :: Hexadecimal.digits 4 n

def units (c : Char) : List Nat :=
  let n := c.toNat
  if n < 0x10000 then [n] else [0xd800 + (n - 0x10000) / 0x400, 0xdc00 + (n - 0x10000) % 0x400]

def escape (c : Char) : List Char :=
  if c = '"' then ['\\', '"']
  else if c = '\\' then ['\\', '\\']
  else if c = '\n' then ['\\', 'n']
  else if c = '\r' then ['\\', 'r']
  else if c = '\t' then ['\\', 't']
  else if c = '\x08' then ['\\', 'b']
  else if c = '\x0c' then ['\\', 'f']
  else if 0x20 ≤ c.toNat ∧ c.toNat < 0x7f then [c]
  else (units c).flatMap escapeUnit

def quote (s : String) : String := String.ofList ('"' :: s.toList.flatMap escape ++ ['"'])

def indent (level : Nat) : String := String.ofList (List.replicate (2 * level) ' ')

mutual

def render (level : Nat) : Json → String
  | null => "null"
  | number n => Numeral.text n
  | index n => toString n
  | string s => quote s
  | array [] => "[]"
  | array (x :: xs) =>
    "[\n" ++ indent (level + 1) ++ render (level + 1) x ++ renderItems (level + 1) xs ++ "\n" ++
      indent level ++ "]"
  | object [] => "\x7b\x7d"
  | object ((key, x) :: fields) =>
    "\x7b\n" ++ indent (level + 1) ++ quote key ++ ": " ++ render (level + 1) x ++
      renderFields (level + 1) fields ++ "\n" ++ indent level ++ "\x7d"

def renderItems (level : Nat) : List Json → String
  | [] => ""
  | x :: xs => ",\n" ++ indent level ++ render level x ++ renderItems level xs

def renderFields (level : Nat) : List (String × Json) → String
  | [] => ""
  | (key, x) :: fields =>
    ",\n" ++ indent level ++ quote key ++ ": " ++ render level x ++ renderFields level fields

end

mutual

def writable : Json → Bool
  | number n => decide (Numeral.Writable n)
  | array xs => allWritable xs
  | object fields => fieldsWritable fields
  | _ => true

def allWritable : List Json → Bool
  | [] => true
  | x :: xs => x.writable && allWritable xs

def fieldsWritable : List (String × Json) → Bool
  | [] => true
  | (_, x) :: fields => x.writable && fieldsWritable fields

end

def text? (j : Json) : Option String := if j.writable then some (j.render 0) else none

end Json

end ShaderLayout.Text
