import ShaderLayout.Layout.Table
import ShaderLayout.Padded

/-!
Lowering laid-out types to padded ones. The lowered type of a handle is kept, and used again
whenever that handle is asked for.
-/

namespace ShaderLayout.Padded

open Number

abbrev Cache := List (Handle × Padded)

abbrev Lower := ExceptT Failure (StateM Cache)

namespace Lower

def ofResult {α : Type} (e : Except LayoutError α) : Lower α :=
  match e with
  | .ok a => pure a
  | .error e => throw (.ofError e)

def ofCounted {α : Type} (e : Except Failure α) : Lower α :=
  match e with
  | .ok a => pure a
  | .error e => throw e

end Lower

def ofScalar (s : Scalar) : Except Failure Padded :=
  match s.kind with
  | .float =>
    if s.width = 2 then .ok half
    else if s.width = 4 then .ok float
    else if s.width = 8 then .ok double
    else if Numeral.Writable s.width then .error (.unsupportedFloatWidth s.width)
    else .error .numeralTooLong
  | _ => if s.width < 0 then .error .negativeWidth else .ok (int (s.width * 8).toNat)

def pointer : Padded := int (Layout.pointerSize * 8).toNat

def lowerMembers (recur : Handle → Lower Padded) (t : Layouts) :
    Int → List (Placement × StructMember) → Lower (List Padded × Int)
  | offset, [] => pure ([], offset)
  | offset, (p, m) :: rest => do
    let l ← Lower.ofResult (t.resolve m.type)
    let type ← recur m.type
    let target ← Lower.ofCounted p.countedSize
    let skipped := if offset < p.start then [bytes (p.start - offset)] else []
    let (others, stop) ← lowerMembers recur t p.stop rest
    pure (skipped ++ fit type l.size target :: others, stop)

def lowerShape (recur : Handle → Lower Padded) (t : Layouts) (h : Handle) : Shape → Lower Padded
  | .scalar s => Lower.ofCounted (ofScalar s)
  | .vector n c => do
    pure (array n.toNat (← Lower.ofCounted (ofScalar c)))
  | .matrix columns rows width => do
    pure (array columns.toNat (array rows.toNat (← Lower.ofCounted (ofScalar ⟨.float, width⟩))))
  | .pointer _ | .valuePointer .. => pure pointer
  | .array base _ _ => do
    let l ← Lower.ofResult (t.resolve h)
    let element ← recur base
    let b ← Lower.ofResult (t.resolve base)
    pure (array (l.size.fdiv l.alignment) (fit element b.size l.alignment))
  | .struct members => do
    let placements ← Lower.ofResult (Layout.placements t members)
    let (elements, stop) ← lowerMembers recur t 0 (placements.zip members)
    let l ← Lower.ofResult (t.resolve h)
    pure (packed (elements ++ if stop < l.size then [bytes (l.size - stop)] else []))
  | .image .. | .sampler _ => pure empty

/-- Lowers a handle. `depth` bounds how deep types may be nested; one more than there are types is
enough unless a type contains itself. -/
def lowerWithin (types : Arena GpuType) (t : Layouts) : Nat → Handle → Lower Padded
  | 0, _ => throw .endless
  | depth + 1, h => do
    match (← get).lookup h with
    | some type => pure type
    | none =>
      match types.get? h with
      | none => throw (.ofError (.notInArena h types.size))
      | some type => do
        let lowered ← lowerShape (lowerWithin types t depth) t h type.shape
        modify ((h, lowered) :: ·)
        pure lowered

def lower (types : Arena GpuType) (t : Layouts) (h : Handle) : Lower Padded :=
  lowerWithin types t (types.size + 1) h

def describe (types : Arena GpuType) (t : Layouts) (h : Handle) : Lower String := do
  let type ← lower types t h
  Lower.ofCounted (Failure.requireText type.text?)

def describeAll (types : Arena GpuType) (t : Layouts) : Lower (List String) :=
  types.handles.mapM (describe types t)

end ShaderLayout.Padded
