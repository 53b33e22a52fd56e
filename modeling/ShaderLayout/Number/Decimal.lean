namespace ShaderLayout.Number.Decimal

/-- A positive double as `mantissa * 2 ^ exponent`; `narrow` if the next double below is only half
as far away as the next above. -/
structure Binary where
  mantissa : Nat
  exponent : Int
  narrow : Bool

def fractionBits : Nat := 52

def ofBits (bits : Nat) : Binary :=
  let fraction : Nat := bits % Nat.pow 2 fractionBits
  let field : Nat := bits / Nat.pow 2 fractionBits % Nat.pow 2 11
  if field = 0 then ⟨fraction, -1074, false⟩
  else ⟨Nat.pow 2 fractionBits + fraction, (field : Int) - 1075, fraction = 0 && 1 < field⟩

def Binary.covers (b : Binary) (n d : Nat) : Bool :=
  let scaleUp := Nat.pow 2 (b.exponent - 2).toNat
  let scaleDown := Nat.pow 2 (2 - b.exponent).toNat
  let low := (4 * b.mantissa - if b.narrow then 1 else 2) * scaleUp * d
  let high := (4 * b.mantissa + 2) * scaleUp * d
  let middle := n * scaleDown
  if b.mantissa % 2 = 0 then decide (low ≤ middle ∧ middle ≤ high) else decide (low < middle ∧ middle < high)

def Binary.num (b : Binary) : Nat := b.mantissa * Nat.pow 2 b.exponent.toNat

def Binary.den (b : Binary) : Nat := Nat.pow 2 (-b.exponent).toNat

def scaledNum (n : Nat) (e : Int) : Nat := n * Nat.pow 10 e.toNat

def scaledDen (e : Int) : Nat := Nat.pow 10 (-e).toNat

def Binary.onGrid? (b : Binary) (e : Int) : Option Nat :=
  let n := b.num * scaledDen e
  let d := b.den * Nat.pow 10 e.toNat
  let below := n / d
  let covered (k : Nat) : Bool := b.covers (scaledNum k e) (scaledDen e)
  let twice := 2 * (n % d)
  match covered below, covered (below + 1) with
  | true, true =>
    if twice < d then some below
    else if d < twice then some (below + 1)
    else if below % 2 = 0 then some below else some (below + 1)
  | true, false => some below
  | false, true => some (below + 1)
  | false, false => none

def leadingPlace (n d : Nat) : Nat → Int → Int
  | 0, k => k
  | fuel + 1, k =>
    if d * Nat.pow 10 k.toNat ≤ n * Nat.pow 10 (-k).toNat then k else leadingPlace n d fuel (k - 1)

def Binary.shortest (b : Binary) : Nat × Int :=
  let place := leadingPlace b.num b.den 640 309
  let grids := (List.range 17).map fun k : Nat => place - k
  ((grids.findSome? fun e => (b.onGrid? e).map (·, e))).getD (0, 0)

def stripZeros (digits : List Char) : List Char := (digits.reverse.dropWhile (· = '0')).reverse

def padExponent (n : Nat) : String := (if n < 10 then "0" else "") ++ toString n

def layOut (digits : List Char) (leading : Int) : String :=
  let str (s : List Char) : String := String.ofList s
  if leading < -4 ∨ 16 ≤ leading then
    let fraction := digits.drop 1
    str (digits.take 1) ++ (if fraction = [] then "" else "." ++ str fraction) ++
      (if leading < 0 then "e-" else "e+") ++ padExponent leading.natAbs
  else if leading < 0 then "0." ++ str (List.replicate (-leading - 1).toNat '0') ++ str digits
  else
    let whole := leading.toNat + 1
    let fraction := digits.drop whole
    str (digits.take whole) ++ str (List.replicate (whole - digits.length) '0') ++ "." ++
      (if fraction = [] then "0" else str fraction)

def positiveText (bits : Nat) : String :=
  let (n, e) := (ofBits bits).shortest
  let digits := (toString n).toList
  layOut (stripZeros digits) (e + digits.length - 1)

def text (x : Float) : String :=
  let bits := x.toBits.toNat
  let magnitude := bits % Nat.pow 2 63
  let sign := if bits / Nat.pow 2 63 = 1 then "-" else ""
  if x.isNaN then "nan"
  else if x.isInf then sign ++ "inf"
  else if magnitude = 0 then sign ++ "0.0"
  else sign ++ positiveText magnitude

def ofScaled (n : Nat) (e : Int) : Float :=
  let magnitude := e + (toString n).length
  if n = 0 then 0.0
  else if 400 < magnitude then 1.0 / 0.0
  else if magnitude < -400 then 0.0
  else Float.ofScientific n (decide (e < 0)) e.natAbs

def digitsValue (s : List Char) : Nat := s.foldl (fun n c => 10 * n + (c.toNat - '0'.toNat)) 0

def splitSign : List Char → Bool × List Char
  | '-' :: r => (true, r)
  | '+' :: r => (false, r)
  | r => (false, r)

def exponent : List Char → Int
  | [] => 0
  | _ :: r =>
    let (negative, digits) := splitSign r
    let n : Int := digitsValue (digits.takeWhile Char.isDigit)
    if negative then -n else n

def unsigned (s : List Char) : Float :=
  let whole := s.takeWhile Char.isDigit
  let (fraction, rest) := match s.dropWhile Char.isDigit with
    | '.' :: r => (r.takeWhile Char.isDigit, r.dropWhile Char.isDigit)
    | r => ([], r)
  ofScaled (digitsValue (whole ++ fraction)) (exponent rest - fraction.length)

def read (s : String) : Float :=
  let (negative, r) := splitSign s.toList
  let magnitude :=
    if r = ['i', 'n', 'f'] then 1.0 / 0.0
    else if r = ['n', 'a', 'n'] then 0.0 / 0.0
    else unsigned r
  if negative then -magnitude else magnitude

end ShaderLayout.Number.Decimal
