import ShaderLayout.Diagnostic
import ShaderLayout.Layout.Placement

/-!
The layout of every type of an arena, computed in order. A type can only use the layouts of the
types before it.
-/

namespace ShaderLayout.Layout

def pointerSize : Int := 4

def pointerAlignment : Int := 1

def wordLimit : Int := 4294967296

/-- How many elements an array has. A length that is only known when the array is bound counts as
zero, and an integer counts modulo `2 ^ 32`. -/
def arrayCount (constants : Arena Constant) (array : Handle) : ArrayLength → Except LayoutError Int
  | .dynamic => .ok 0
  | .constant h =>
    match constants.get? h with
    | none => .error (.notInArena h constants.size)
    | some c =>
      match c.value.integer? with
      | some n => .ok (n % wordLimit)
      | none => .error (.lengthNotInteger array h c.value)

def structExtent (t : Layouts) : Int → Int → List StructMember → Except LayoutError (Int × Int)
  | total, alignment, [] => .ok (total, alignment)
  | total, alignment, m :: rest => do
    let p ← place t 0 total m
    structExtent t p.stop (max alignment p.alignment) rest

def ofShape (t : Layouts) (constants : Arena Constant) (h : Handle) : Shape → Except LayoutError Layout
  | .scalar s => .ok ⟨s.width, s.width⟩
  | .vector n c => .ok ⟨n.toNat * c.width, n.slots * c.width⟩
  | .matrix columns rows width => .ok ⟨columns.toNat * rows.toNat * width, rows.slots * width⟩
  | .pointer _ | .valuePointer .. => .ok ⟨pointerSize, pointerAlignment⟩
  | .array base length stride => do
    let count ← arrayCount constants h length
    match stride with
    | some s => return ⟨count * s, s⟩
    | none =>
      let l ← t.resolve base
      let s := roundUp l.alignment l.size
      return ⟨count * s, s⟩
  | .struct members => do
    let (total, alignment) ← structExtent t 0 1 members
    return ⟨roundUp alignment total, alignment⟩
  | .image .. | .sampler _ => .ok ⟨0, 1⟩

def ofType (t : Layouts) (constants : Arena Constant) (h : Handle) (type : GpuType) :
    Except LayoutError Layout := do
  let l ← ofShape t constants h type.shape
  if l.alignment = 0 then .error (.zeroAlignment h type.shape.tag)
  else if wordLimit ≤ l.size then .error (.sizeOverflow h type.shape.tag l.size)
  else return l

def extend (constants : Arena Constant) : Layouts → List GpuType → Layouts × Option LayoutError
  | t, [] => (t, none)
  | t, type :: rest =>
    match ofType t constants ⟨t.size⟩ type with
    | .ok l => extend constants (t.push l) rest
    | .error e => (t, some e)

def fill (types : Arena GpuType) (constants : Arena Constant) : Layouts × Option LayoutError :=
  extend constants #[] types.toList

def table (types : Arena GpuType) (constants : Arena Constant) : Except Failure Layouts :=
  match fill types constants with
  | (t, none) => .ok t
  | (_, some e) => .error (.ofError e)

def tryTable (types : Arena GpuType) (constants : Arena Constant) (r : Report) :
    Except Failure (Option Layouts × Report) :=
  match table types constants with
  | .ok t => .ok (some t, r)
  | .error (.layout e) => .ok (none, r.emit e.message e.arguments none)
  | .error f => .error f

end ShaderLayout.Layout
