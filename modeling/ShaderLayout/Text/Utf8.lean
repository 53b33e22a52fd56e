import ShaderLayout.Number.Integer

namespace ShaderLayout.Text.Utf8

open Number

structure Partial where
  bits : Nat
  owed : Nat
  low : Nat
  high : Nat
  deriving DecidableEq, Repr

inductive Start
  | char (c : Char)
  | more (p : Partial)
  | invalid

def start (b : Nat) : Start :=
  if b < 0x80 then .char (Char.ofNat b)
  else if 0xc2 ≤ b ∧ b ≤ 0xdf then .more ⟨b % 0x20, 1, 0x80, 0xbf⟩
  else if 0xe0 ≤ b ∧ b ≤ 0xef then
    .more ⟨b % 0x10, 2, if b = 0xe0 then 0xa0 else 0x80, if b = 0xed then 0x9f else 0xbf⟩
  else if 0xf0 ≤ b ∧ b ≤ 0xf4 then
    .more ⟨b % 0x8, 3, if b = 0xf0 then 0x90 else 0x80, if b = 0xf4 then 0x8f else 0xbf⟩
  else .invalid

inductive Reason
  | invalidStart
  | invalidContinuation
  | unexpectedEnd
  deriving DecidableEq, Repr

namespace Reason

def text : Reason → String
  | invalidStart => "invalid start byte"
  | invalidContinuation => "invalid continuation byte"
  | unexpectedEnd => "unexpected end of data"

end Reason

structure Fault where
  position : Nat
  count : Nat
  first : Nat
  reason : Reason
  deriving DecidableEq, Repr

namespace Fault

def text (f : Fault) : String :=
  let place :=
    if f.count = 1 then
      "byte 0x" ++ String.ofList (Hexadecimal.digits 2 f.first) ++ " in position " ++ toString f.position
    else "bytes in position " ++ toString f.position ++ "-" ++ toString (f.position + f.count - 1)
  "'utf-8' codec can't decode " ++ place ++ ": " ++ f.reason.text

end Fault

structure Pending where
  position : Nat
  first : Nat
  count : Nat
  partly : Partial

def decodeFrom (position : Nat) (pending : Option Pending) : List Nat → Except Fault (List Char)
  | [] =>
    match pending with
    | none => .ok []
    | some p => .error ⟨p.position, p.count, p.first, .unexpectedEnd⟩
  | b :: rest =>
    match pending with
    | none =>
      match start b with
      | .char c => (decodeFrom (position + 1) none rest).map (c :: ·)
      | .more p => decodeFrom (position + 1) (some ⟨position, b, 1, p⟩) rest
      | .invalid => .error ⟨position, 1, b, .invalidStart⟩
    | some p =>
      if p.partly.low ≤ b ∧ b ≤ p.partly.high then
        let bits := p.partly.bits * 0x40 + b % 0x40
        if p.partly.owed ≤ 1 then (decodeFrom (position + 1) none rest).map (Char.ofNat bits :: ·)
        else
          decodeFrom (position + 1)
            (some ⟨p.position, p.first, p.count + 1, ⟨bits, p.partly.owed - 1, 0x80, 0xbf⟩⟩) rest
      else .error ⟨p.position, p.count, p.first, .invalidContinuation⟩

def decode (bytes : List UInt8) : Except Fault (List Char) := decodeFrom 0 none (bytes.map UInt8.toNat)

end ShaderLayout.Text.Utf8
