namespace ShaderLayout.Number.Bits

def land : Int → Int → Int
  | .ofNat m, .ofNat n => .ofNat (m &&& n)
  | .ofNat m, .negSucc n => .ofNat (m ^^^ (m &&& n))
  | .negSucc m, .ofNat n => .ofNat (n ^^^ (m &&& n))
  | .negSucc m, .negSucc n => .negSucc (m ||| n)

def lor : Int → Int → Int
  | .ofNat m, .ofNat n => .ofNat (m ||| n)
  | .ofNat m, .negSucc n => .negSucc (n ^^^ (m &&& n))
  | .negSucc m, .ofNat n => .negSucc (m ^^^ (m &&& n))
  | .negSucc m, .negSucc n => .negSucc (m &&& n)

end ShaderLayout.Number.Bits

namespace ShaderLayout.Number.Hexadecimal

def digits : Nat → Nat → List Char
  | 0, _ => []
  | width + 1, n => digits width (n / 16) ++ [Nat.digitChar (n % 16)]

end ShaderLayout.Number.Hexadecimal

namespace ShaderLayout.Number.Digit

def zeros : List Nat :=
  [0x30, 0x660, 0x6f0, 0x7c0, 0x966, 0x9e6, 0xa66, 0xae6, 0xb66, 0xbe6, 0xc66, 0xce6, 0xd66, 0xde6,
    0xe50, 0xed0, 0xf20, 0x1040, 0x1090, 0x17e0, 0x1810, 0x1946, 0x19d0, 0x1a80, 0x1a90, 0x1b50,
    0x1bb0, 0x1c40, 0x1c50, 0xa620, 0xa8d0, 0xa900, 0xa9d0, 0xa9f0, 0xaa50, 0xabf0, 0xff10, 0x104a0,
    0x10d30, 0x11066, 0x110f0, 0x11136, 0x111d0, 0x112f0, 0x11450, 0x114d0, 0x11650, 0x116c0, 0x11730,
    0x118e0, 0x11950, 0x11c50, 0x11d50, 0x11da0, 0x16a60, 0x16ac0, 0x16b50, 0x1d7ce, 0x1d7d8, 0x1d7e2,
    0x1d7ec, 0x1d7f6, 0x1e140, 0x1e2f0, 0x1e950, 0x1fbf0]

def value? (c : Char) : Option Nat :=
  (zeros.find? fun z => decide (z ≤ c.toNat ∧ c.toNat < z + 10)).map (c.toNat - ·)

theorem value?_lt {c : Char} {d : Nat} (h : value? c = some d) : d < 10 := by
  obtain ⟨z, hz, rfl⟩ := Option.map_eq_some_iff.1 h
  have := List.find?_some hz
  simp at this
  omega

end ShaderLayout.Number.Digit

namespace ShaderLayout.Text.Blank

def isBlank (c : Char) : Bool :=
  let n := c.toNat
  (0x9 ≤ n && n ≤ 0xd) || n == 0x20 || n == 0x85 || n == 0xa0 || n == 0x1680 || (0x2000 ≤ n && n ≤ 0x200a) ||
    n == 0x2028 || n == 0x2029 || n == 0x202f || n == 0x205f || n == 0x3000

def trim (s : List Char) : List Char :=
  ((s.dropWhile isBlank).reverse.dropWhile isBlank).reverse

end ShaderLayout.Text.Blank

namespace ShaderLayout.Number.Numeral

def maxDigits : Nat := 4300

def bound : Nat := Nat.pow 10 maxDigits

def Writable (n : Int) : Prop := n.natAbs < bound

instance : DecidablePred Writable := fun n => inferInstanceAs (Decidable (n.natAbs < bound))

def text (n : Int) : String := toString n

def digits? : List Char → Option (List Nat)
  | [] => none
  | [c] => (Digit.value? c).map ([·])
  | c :: '_' :: r => do return (← Digit.value? c) :: (← digits? r)
  | c :: r => do return (← Digit.value? c) :: (← digits? r)

def ofDigits (ds : List Nat) : Nat := ds.foldl (fun n d => 10 * n + d) 0

def natural? (s : List Char) : Option Nat := do
  let ds ← digits? s
  if ds.length ≤ maxDigits then return ofDigits ds else none

def read? (s : List Char) : Option Int :=
  match Text.Blank.trim s with
  | '-' :: r => (natural? r).map fun n => -(n : Int)
  | '+' :: r => (natural? r).map fun n => (n : Int)
  | r => (natural? r).map fun n => (n : Int)

inductive Suffix
  | none
  | signed
  | unsigned
  deriving DecidableEq, Repr

def Suffix.text : Suffix → String
  | none => ""
  | signed => "i"
  | unsigned => "u"

def splitSuffix (s : List Char) : List Char × Suffix :=
  match s.getLast? with
  | some 'i' => (s.dropLast, .signed)
  | some 'u' => (s.dropLast, .unsigned)
  | _ => (s, .none)

def literal? (s : String) : Option (Int × Suffix) := do
  let (body, suffix) := splitSuffix s.toList
  let n ← read? body
  if suffix = .unsigned ∧ n < 0 then none else return (n, suffix)

end ShaderLayout.Number.Numeral
