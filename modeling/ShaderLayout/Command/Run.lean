import ShaderLayout.Command.Options
import ShaderLayout.Description.Outline
import ShaderLayout.Description.Table
import ShaderLayout.Diagnostic.Render
import ShaderLayout.Layout.Table
import ShaderLayout.Listing
import ShaderLayout.Padded.Lowering
import ShaderLayout.Text.Line
import ShaderLayout.Text.Utf8

/-!
The command as a function of its surroundings: what it writes, and how it ends. It ends with 0, with
1 if there were warnings, with 2 on errors.
-/

namespace ShaderLayout.Command.Path

def follow (directory : List String) : List String → List String
  | [] => directory
  | part :: rest =>
    if part = "" ∨ part = "." then follow directory rest
    else if part = ".." then follow directory.dropLast rest
    else follow (directory ++ [part]) rest

def parts (path : String) : List String := path.splitOn "/"

def resolve (directory : List String) (path : String) : List String :=
  if path.toList.head? = some '/' then follow [] (parts path) else follow directory (parts path)

def text (path : List String) : String := "/" ++ String.intercalate "/" path

end ShaderLayout.Command.Path

namespace ShaderLayout.Command

structure Versions where
  app : String
  interpreter : String
  grammar : String
  binding : String
  llvm : String
  development : Bool
  deriving DecidableEq, Repr

def banner (v : Versions) (interactive : Bool) : String :=
  let styled (style : String) : String := if interactive then style else ""
  styled Report.bold ++ "gpu-layout" ++ styled Report.reset ++ " • " ++ v.app ++
    (if v.development then " (dev)" else "") ++ "\n" ++
  styled Report.dim ++ "Python " ++ v.interpreter ++ " • lark " ++ v.grammar ++ " • llvmlite " ++ v.binding ++
    " • LLVM " ++ v.llvm ++ styled Report.reset ++ "\n"

inductive ReadFault
  | missing
  | throughFile
  | directory
  | nameTooLong
  deriving DecidableEq, Repr

namespace ReadFault

def text : ReadFault → String
  | missing => "[Errno 2] No such file or directory"
  | throughFile => "[Errno 20] Not a directory"
  | directory => "[Errno 21] Is a directory"
  | nameTooLong => "[Errno 36] File name too long"

end ReadFault

structure World where
  terminal : Report.Terminal
  versions : Versions
  directory : List String
  read : List String → Except ReadFault (List UInt8)

inductive Abort
  | failure (failure : Failure)
  | malformed (fault : Text.Utf8.Fault)
  | nullInPath

structure Outcome where
  stdout : String
  stderr : String
  ending : Except Abort Nat

namespace Outcome

def exit (code : Nat) (stdout stderr : String) : Outcome := ⟨stdout, stderr, .ok code⟩

def fail (f : Failure) (stdout : String) : Outcome := ⟨stdout, "", .error (.failure f)⟩

end Outcome

def errorCode : Nat := 2

def printReport (w : World) (r : Report) : String := r.print (w.terminal.style none none)

def list (w : World) (o : Options) (path dump : String) (table : Description.Table) (t : Layouts)
    (report : Report) : Outcome :=
  let lowered : Except Failure (Option (List String)) :=
    if o.has .llvm then ((Padded.describeAll table.types t).run.run []).1.map some else .ok none
  match Listing.rows table.types table.constants t with
  | .error f => .fail f dump
  | .ok rows =>
    match lowered with
    | .error f => .fail f dump
    | .ok lowerings =>
      let (listing, failure) :=
        if o.has .json then
          match (Listing.document path rows lowerings).text? with
          | some s => (s ++ "\n", none)
          | none => ("", some .numeralTooLong)
        else Listing.written (Listing.tableParts rows (o.has .members) lowerings)
      match failure with
      | some f => .fail f (dump ++ listing)
      | none => .exit (if report.hasWarnings then 1 else 0) (dump ++ listing) (printReport w report)

def fatalText (traceback : Bool) (e : LayoutError) : String :=
  if traceback then
    "Traceback (most recent call last):\ngpu_layout.internals.errors.LayoutError: " ++ e.code ++ ": " ++ e.text ++ "\n"
  else "fatal: " ++ e.code ++ ": " ++ e.text ++ "\n"

def layOut (w : World) (o : Options) (path dump : String) (table : Description.Table) (report : Report) :
    Outcome :=
  if o.has .fatal then
    match Layout.table table.types table.constants with
    | .ok t => list w o path dump table t report
    | .error (.layout e) => .exit errorCode dump (fatalText (o.has .traceback) e)
    | .error f => .fail f dump
  else
    match Layout.tryTable table.types table.constants report with
    | .ok (some t, report) => list w o path dump table t report
    | .ok (none, report) => .exit errorCode dump (printReport w report)
    | .error f => .fail f dump

def dumpText (source : String) : String :=
  match Description.parse source with
  | .ok items => (Description.Outline.ofItems items).render 0 ++ "\n"
  | .error _ => ""

def process (w : World) (o : Options) (path source : String) : Outcome :=
  let dump := if o.has .dumpParse then dumpText source else ""
  let reading := Description.read source
  let report := reading.report (.empty (some source) path)
  match reading.accepted? with
  | none => .exit errorCode dump (printReport w report)
  | some table => layOut w o path dump table report

def processFile (w : World) (o : Options) (path : String) : Outcome :=
  let place := Path.resolve w.directory path
  if '\x00' ∈ path.toList then ⟨"", "", .error .nullInPath⟩
  else match w.read place with
  | .error f =>
    let name := Path.text place
    .exit errorCode "" ("error: cannot read " ++ name ++ ": " ++ f.text ++ ": " ++
      String.ofList (Text.Quoted.encode name.toList) ++ "\n")
  | .ok bytes =>
    match Text.Utf8.decode bytes with
    | .error f => ⟨"", "", .error (.malformed f)⟩
    | .ok chars => process w o path (String.ofList (Text.Line.unify chars))

def run (w : World) (arguments : List String) : Outcome :=
  match Request.ofArguments arguments with
  | .help => .exit 0 help ""
  | .refuse r => .exit errorCode "" (usage ++ "gpu-layout: error: " ++ r.text ++ "\n")
  | .run o =>
    if o.has .version then .exit 0 (banner w.versions w.terminal.interactive) ""
    else match o.source with
      | none => .exit errorCode "" "error: source file required\n"
      | some path =>
        if path = "" then .exit errorCode "" "error: source file required\n"
        else processFile w o path

end ShaderLayout.Command
