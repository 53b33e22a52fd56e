import ShaderLayout.Layout.Error

namespace ShaderLayout.Layout

open Number

def roundUp (alignment offset : Int) : Int :=
  let rem := Bits.land offset alignment
  if rem = 0 then offset else offset + alignment - rem

theorem roundUp_of_land_eq_zero {a o : Int} (h : Bits.land o a = 0) : roundUp a o = o := by
  simp [roundUp, h]

end ShaderLayout.Layout

namespace ShaderLayout

structure Layout where
  size : Int
  alignment : Int
  deriving DecidableEq, Repr, Inhabited

abbrev Layouts := Array Layout

namespace Layouts

def resolve (t : Layouts) (h : Handle) : Except LayoutError Layout :=
  match t[h.index]? with
  | some l => .ok l
  | none => .error (.notLaidOut h t.size)

end Layouts

structure Placement where
  index : Nat
  name : Option String
  start : Int
  stop : Int
  alignment : Int
  deriving DecidableEq, Repr

namespace Placement

def largestSize : Int := 9223372036854775807

def size (p : Placement) : Int := max 0 (p.stop - p.start)

def countedSize (p : Placement) : Except Failure Int :=
  if p.size ≤ largestSize then .ok p.size else .error .placementTooLong

end Placement

namespace Layout

/-- Places a member at or after an offset. Its own alignment and size, where it has them, replace
those of its type. -/
def place (t : Layouts) (index : Nat) (offset : Int) (m : StructMember) : Except LayoutError Placement := do
  let l ← t.resolve m.type
  let alignment := m.align.getD l.alignment
  let start := roundUp alignment offset
  return ⟨index, m.name, start, start + m.size.getD l.size, alignment⟩

def placeAll (t : Layouts) : Nat → Int → List StructMember → Except LayoutError (List Placement)
  | _, _, [] => .ok []
  | index, offset, m :: rest => do
    let p ← place t index offset m
    return p :: (← placeAll t (index + 1) p.stop rest)

def placements (t : Layouts) (members : List StructMember) : Except LayoutError (List Placement) :=
  placeAll t 0 0 members

end Layout

end ShaderLayout
