import ShaderLayout.Diagnostic.Render
import ShaderLayout.Layout.Table
import ShaderLayout.Listing
import ShaderLayout.Padded.Lowering

/-!
A workspace: types and constants being put together, their layouts, a lowering and a report. A
lowering goes on with the types and layouts it was made for, as they grow or are computed again in
place; once others take their place in the workspace it keeps the old ones.
-/

namespace ShaderLayout

/-- What a lowering works on: what the workspace has now, or what was replaced there. -/
inductive Held (α : Type)
  | current
  | kept (value : α)

namespace Held

variable {α : Type}

def value (h : Held α) (now : α) : α :=
  match h with
  | current => now
  | kept old => old

def keep (h : Held α) (now : α) : Held α := kept (h.value now)

end Held

structure Lowering where
  cache : Padded.Cache
  types : Held (Arena GpuType)
  layouts : Held Layouts

structure Workspace where
  types : Arena GpuType
  constants : Arena Constant
  layouts : Layouts
  lowering : Lowering
  report : Report

namespace Workspace

abbrev Action := ExceptT Failure (StateM Workspace)

def freshLowering : Lowering := ⟨[], .current, .current⟩

def start (types : Arena GpuType) (constants : Arena Constant) (report : Report) : Workspace :=
  ⟨types, constants, #[], freshLowering, report⟩

def ofResult {α : Type} (e : Except LayoutError α) : Action α :=
  match e with
  | .ok a => pure a
  | .error e => throw (.ofError e)

def ofFailure {α : Type} (e : Except Failure α) : Action α :=
  match e with
  | .ok a => pure a
  | .error e => throw e

def loadTypes (types : Arena GpuType) : Action Unit :=
  modify fun w => { w with
    types := types
    lowering := { w.lowering with types := w.lowering.types.keep w.types } }

def loadConstants (constants : Arena Constant) : Action Unit := modify fun w => { w with constants }

def replaceLayouts (t : Layouts) : Action Unit :=
  modify fun w => { w with
    layouts := t
    lowering := { w.lowering with layouts := w.lowering.layouts.keep w.layouts } }

def appendType (t : GpuType) : Action Handle := do
  let w ← get
  set { w with types := w.types.append t }
  pure w.types.next

def appendConstant (c : Constant) : Action Handle := do
  let w ← get
  set { w with constants := w.constants.append c }
  pure w.constants.next

def fetchType (t : GpuType) : Action Handle := do
  let w ← get
  let (h, types) := w.types.fetchOrAppend t
  set { w with types }
  pure h

def fetchConstant (c : Constant) : Action Handle := do
  let w ← get
  let (h, constants) := w.constants.fetchOrAppend c
  set { w with constants }
  pure h

def entry {α : Type} (a : Arena α) (h : Handle) : Action α :=
  match a.get? h with
  | some x => pure x
  | none => throw (.ofError (.notInArena h a.size))

def typeAt (h : Handle) : Action GpuType := do
  entry (← get).types h

def constantAt (h : Handle) : Action Constant := do
  entry (← get).constants h

def renew : Action Unit := do
  let w ← get
  replaceLayouts (← ofFailure (Layout.table w.types w.constants))

def recompute : Action Unit := do
  let w ← get
  let (t, error) := Layout.fill w.types w.constants
  set { w with layouts := t }
  match error with
  | none => pure ()
  | some e => throw (.ofError e)

def tryRenew : Action Bool := do
  let w ← get
  let (t, report) ← ofFailure (Layout.tryTable w.types w.constants w.report)
  modify fun w => { w with report }
  match t with
  | none => pure false
  | some t => do
    replaceLayouts t
    pure true

def clear : Action Unit := modify fun w => { w with layouts := #[] }

def resolve (h : Handle) : Action Layout := do
  ofResult ((← get).layouts.resolve h)

def placeMember (offset : Int) (m : StructMember) : Action Placement := do
  ofResult (Layout.place (← get).layouts 0 offset m)

def placements (members : List StructMember) : Action (List (Placement × Int)) := do
  let ps ← ofResult (Layout.placements (← get).layouts members)
  ofFailure (ps.mapM fun p => do return (p, ← p.countedSize))

def newLowering : Action Unit := modify fun w => { w with lowering := freshLowering }

def lowerWith {α : Type} (f : Arena GpuType → Layouts → Padded.Lower α) : Action α := do
  let w ← get
  let l := w.lowering
  let (result, cache) := (f (l.types.value w.types) (l.layouts.value w.layouts)).run.run l.cache
  set { w with lowering := { l with cache } }
  ofFailure result

def describe (h : Handle) : Action String := lowerWith fun types t => Padded.describe types t h

def describeAll : Action (List String) := do
  (← get).types.handles.mapM describe

def scalarText (s : Scalar) : Action String :=
  ofFailure do
    let type ← Padded.ofScalar s
    Failure.requireText type.text?

def rows : Action (List Listing.Row) := do
  let w ← get
  ofFailure (Listing.rows w.types w.constants w.layouts)

def table (showMembers showLowered : Bool) : Action String := do
  let lowerings ← if showLowered then some <$> describeAll else pure none
  match Listing.written (Listing.tableParts (← rows) showMembers lowerings) with
  | (s, none) => pure s
  | (_, some f) => throw f

def emit (m : Message) (arguments : Arguments) (span : Option Span) (w : Workspace) :
    Except Catalogue.Fault Workspace :=
  (Catalogue.format m arguments).map fun _ => { w with report := w.report.emit m arguments span }

end Workspace

end ShaderLayout
