import ShaderLayout.Description.Table
import ShaderLayout.Layout.Table
import ShaderLayout.Padded.Lowering
import ShaderLayout.Text.Json

namespace ShaderLayout.Listing

open Number Text

structure MemberRow where
  name : Option String
  type : String
  start : Int
  stop : Int
  alignment : Int
  deriving DecidableEq, Repr

structure Row where
  handle : Nat
  name : Option String
  kind : String
  type : String
  size : Int
  alignment : Int
  members : Option (List MemberRow)
  deriving DecidableEq, Repr

section Rows

variable (types : Arena GpuType) (constants : Arena Constant)

def memberRow (p : Placement) (m : StructMember) : Except Failure MemberRow :=
  match types.get? m.type with
  | none => .error (.ofError (.notInArena m.type types.size))
  | some type => do
    return ⟨p.name, ← Failure.requireText (type.text? types constants), p.start, p.stop, p.alignment⟩

def memberRows (t : Layouts) (members : List StructMember) : Except Failure (List MemberRow) :=
  match Layout.placements t members with
  | .error e => .error (.ofError e)
  | .ok ps => (ps.zip members).mapM fun (p, m) => memberRow types constants p m

def row (t : Layouts) (handle : Nat) (type : GpuType) (l : Layout) : Except Failure Row := do
  let text ← Failure.requireText (type.shape.text? types constants)
  let members ← match type.shape with
    | .struct ms => some <$> memberRows types constants t ms
    | _ => pure none
  return ⟨handle, type.name, type.shape.tag, text, l.size, l.alignment, members⟩

def rows (t : Layouts) : Except Failure (List Row) :=
  (types.toList.zip t.toList).zipIdx.mapM fun ((type, l), i) => row types constants t i type l

end Rows

def padLeft (width : Nat) (s : String) : String := String.ofList (List.replicate (width - s.length) ' ') ++ s

def padRight (width : Nat) (s : String) : String := s ++ String.ofList (List.replicate (width - s.length) ' ')

def shownName : Option String → String
  | none => "-"
  | some n => if n = "" then "-" else n

def widest (texts : List String) : Nat := texts.foldl (fun n s => max n s.length) 4

structure Widths where
  name : Nat
  kind : Nat
  deriving DecidableEq, Repr

def widths (rs : List Row) : Widths := ⟨widest (rs.map fun r => shownName r.name), widest (rs.map Row.kind)⟩

def line (w : Widths) (number name kind size alignment : String) : String :=
  padLeft 4 number ++ "  " ++ padRight w.name name ++ "  " ++ padRight w.kind kind ++ "  " ++
    padLeft 6 size ++ "  " ++ padLeft 5 alignment ++ "\n"

def header (w : Widths) : String := line w "#" "name" "kind" "size" "align"

def memberLine (m : MemberRow) : String :=
  "        ." ++ m.name.getD "None" ++ ": " ++ m.type ++ " @ " ++ Numeral.text m.start ++ ".." ++
    Numeral.text m.stop ++ " (align " ++ Numeral.text m.alignment ++ ")\n"

def lowered (text : String) : String := "        llvm: " ++ text ++ "\n"

/-- Text that is written in parts; parts before one that cannot be written are still written. -/
abbrev Parts := List (Except Failure String)

def part (numbers : List Int) (text : String) : Except Failure String :=
  if numbers.all (fun n => decide (Numeral.Writable n)) then .ok text else .error .numeralTooLong

def rowParts (w : Widths) (showMembers : Bool) (r : Row) (lowering : Option String) : Parts :=
  let members := if showMembers then r.members.getD [] else []
  part [r.size, r.alignment]
      (line w (toString r.handle) (shownName r.name) r.kind (Numeral.text r.size) (Numeral.text r.alignment)) ::
    members.map (fun m => part [m.start, m.stop, m.alignment] (memberLine m)) ++
    lowering.toList.map (fun s => .ok (lowered s))

def tableParts (rs : List Row) (showMembers : Bool) (lowerings : Option (List String)) : Parts :=
  let w := widths rs
  .ok (header w) :: rs.flatMap fun r => rowParts w showMembers r (lowerings.bind (·[r.handle]?))

def written : Parts → String × Option Failure
  | [] => ("", none)
  | .error f :: _ => ("", some f)
  | .ok s :: rest =>
    let (t, f) := written rest
    (s ++ t, f)

def orNull (s : Option String) : Json := (s.map Json.string).getD .null

def memberJson (m : MemberRow) : Json :=
  .object [("name", orNull m.name), ("type", .string m.type), ("offset", .number m.start), ("end", .number m.stop),
    ("alignment", .number m.alignment)]

def rowJson (r : Row) (lowering : Option String) : Json :=
  .object ([("handle", .index r.handle), ("name", orNull r.name), ("kind", .string r.kind), ("type", .string r.type),
      ("size", .number r.size), ("alignment", .number r.alignment)] ++
    r.members.toList.map (fun ms => ("members", .array (ms.map memberJson))) ++
    lowering.toList.map (fun s => ("llvm", .string s)))

def document (source : String) (rs : List Row) (lowerings : Option (List String)) : Json :=
  .object [("source", .string source),
    ("types", .array (rs.map fun r => rowJson r (lowerings.bind (·[r.handle]?))))]

end ShaderLayout.Listing

namespace ShaderLayout

structure Listed where
  rows : List Listing.Row
  lowered : List String

structure Compilation where
  accepted : Bool
  listed : Option Listed
  report : Report

namespace Compilation

def listTable (types : Arena GpuType) (constants : Arena Constant) (t : Layouts) : Except Failure Listed := do
  let rows ← Listing.rows types constants t
  return ⟨rows, ← ((Padded.describeAll types t).run.run []).1⟩

def compile (source filename : String) : Except Failure Compilation := do
  let reading := Description.read source
  let report := reading.report (.empty (some source) filename)
  match reading.accepted? with
  | none => return ⟨false, none, report⟩
  | some table =>
    match ← Layout.tryTable table.types table.constants report with
    | (none, report) => return ⟨true, none, report⟩
    | (some t, report) => return ⟨true, some (← listTable table.types table.constants t), report⟩

end Compilation

end ShaderLayout
