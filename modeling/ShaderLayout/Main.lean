import ShaderLayout.Command.Run

namespace ShaderLayout

open Command

def versions : Versions := ⟨"0.3.0", "unknown", "unknown", "unknown", "unknown", false⟩

def readFile (place : List String) : IO (Except ReadFault (List UInt8)) := do
  try
    let bytes ← IO.FS.readBinFile (Path.text place)
    return .ok bytes.toList
  catch
    | .inappropriateType _ 20 _ => return .error .throughFile
    | .inappropriateType .. => return .error .directory
    | .invalidArgument _ 36 _ => return .error .nameTooLong
    | _ => return .error .missing

def surroundings (arguments : List String) : IO World := do
  let directory := Path.resolve [] (← IO.currentDir).toString
  let place := match Request.ofArguments arguments with
    | .run o => Path.resolve directory (o.source.getD "")
    | _ => directory
  let bytes ← readFile place
  let interactive ← (← IO.getStdout).isTty
  let set (name : String) : IO Bool := return (← IO.getEnv name).isSome
  let dumb := (← IO.getEnv "TERM") = some "dumb"
  return ⟨⟨interactive, ← set "NO_COLOR", ← set "NO_UNICODE", dumb⟩, versions, directory, fun _ => bytes⟩

end ShaderLayout

def main (arguments : List String) : IO UInt32 := do
  let outcome := ShaderLayout.Command.run (← ShaderLayout.surroundings arguments) arguments
  IO.print outcome.stdout
  IO.eprint outcome.stderr
  match outcome.ending with
  | .ok code => return code.toUInt32
  | .error _ => return 1
