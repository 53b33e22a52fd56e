import ShaderLayout.Number.Integer
import ShaderLayout.Text.Quoted

namespace ShaderLayout.Command

open Number

inductive Flag
  | help
  | version
  | dumpParse
  | members
  | json
  | llvm
  | fatal
  | traceback
  deriving DecidableEq, Repr

namespace Flag

def names : Flag → List String
  | help => ["-h", "--help"]
  | version => ["--version"]
  | dumpParse => ["--dump-parse"]
  | members => ["--members"]
  | json => ["--json"]
  | llvm => ["--llvm"]
  | fatal => ["--fatal"]
  | traceback => ["--traceback"]

def all : List Flag := [help, version, dumpParse, members, json, llvm, fatal, traceback]

def table : List (String × Flag) := all.flatMap fun f => f.names.map (·, f)

def ofName? (name : String) : Option Flag := table.lookup name

end Flag

structure Options where
  flags : List Flag
  source : Option String
  deriving DecidableEq, Repr

namespace Options

def has (o : Options) (f : Flag) : Bool := o.flags.contains f

end Options

inductive Refusal
  | ambiguous (argument : String) (matching : List String)
  | ignoredValue (flag : Flag) (value : String)
  | unrecognized (arguments : List String)
  deriving DecidableEq, Repr

namespace Refusal

def text : Refusal → String
  | ambiguous argument matching =>
    "ambiguous option: " ++ argument ++ " could match " ++ String.intercalate ", " matching
  | ignoredValue flag value =>
    "argument " ++ String.intercalate "/" flag.names ++ ": ignored explicit argument " ++
      String.ofList (Text.Quoted.encode value.toList)
  | unrecognized arguments => "unrecognized arguments: " ++ String.intercalate " " arguments

end Refusal

inductive Word
  | plain
  | option (name : String) (flag : Flag) (value : Option String)
  | unknown
  deriving DecidableEq, Repr

namespace Word

def isDigit (c : Char) : Bool := (Digit.value? c).isSome

def isDigits (s : List Char) : Bool :=
  s.takeWhile isDigit ≠ [] && (s.dropWhile isDigit = [] || s.dropWhile isDigit = ['\n'])

def isNegativeNumber : List Char → Bool
  | '-' :: r =>
    isDigits r ||
      match r.dropWhile isDigit with
      | '.' :: fraction => isDigits fraction
      | _ => false
  | _ => false

def splitValue (s : List Char) : List Char × Option String :=
  match s.dropWhile (· ≠ '=') with
  | [] => (s, none)
  | _ :: value => (s.takeWhile (· ≠ '='), some (String.ofList value))

def candidates (s : List Char) : List (String × Flag × Option String) :=
  if ['-', '-'].isPrefixOf s then
    let (start, value) := splitValue s
    (Flag.table.filter fun (name, _) => start.isPrefixOf name.toList).map fun (name, f) => (name, f, value)
  else
    Flag.table.filterMap fun (name, f) =>
      if name.toList = s.take 2 then some (name, f, some (String.ofList (s.drop 2)))
      else if s.isPrefixOf name.toList then some (name, f, none)
      else none

def classify (argument : String) : Except Refusal Word :=
  let s := argument.toList
  if s.head? ≠ some '-' ∨ s = ['-'] then .ok .plain
  else match Flag.ofName? argument with
    | some f => .ok (.option argument f none)
    | none =>
      let (start, value) := splitValue s
      match value, Flag.ofName? (String.ofList start) with
      | some v, some f => .ok (.option (String.ofList start) f (some v))
      | _, _ =>
        match candidates s with
        | [(name, f, v)] => .ok (.option name f v)
        | [] => .ok (if isNegativeNumber s ∨ ' ' ∈ s then .plain else .unknown)
        | several => .error (.ambiguous argument (several.map fun (name, _, _) => name))

end Word

/-- What is gathered from the arguments so far; `adjacent` right after the source was taken. -/
structure Gathered where
  flags : List Flag
  source : Option String
  taken : Bool
  adjacent : Bool
  extras : List String

namespace Gathered

def initial : Gathered := ⟨[], none, false, false, []⟩

def addPlain (g : Gathered) (s : String) : Gathered :=
  if g.taken then { g with adjacent := false, extras := g.extras ++ [s] }
  else { g with source := some s, taken := true, adjacent := true }

def addFlag (g : Gathered) (f : Flag) : Gathered := { g with flags := g.flags ++ [f], adjacent := false }

def addUnknown (g : Gathered) (s : String) : Gathered :=
  { g with adjacent := false, extras := g.extras ++ [s] }

def addRest (g : Gathered) (rest : List String) : Gathered :=
  if g.taken then { g with extras := g.extras ++ if g.adjacent then rest else "--" :: rest }
  else { g with source := rest.head?, taken := true, extras := g.extras ++ rest.drop 1 }

end Gathered

inductive Request
  | help
  | run (options : Options)
  | refuse (refusal : Refusal)
  deriving DecidableEq, Repr

namespace Request

def letters (flag : Flag) : List Char → Except Refusal (List Flag)
  | [] => .ok [flag]
  | c :: rest =>
    match Flag.ofName? (String.ofList ['-', c]) with
    | none => .error (.ignoredValue flag (String.ofList (c :: rest)))
    | some next => (letters next rest).map (flag :: ·)

def flagsOf (name : String) (flag : Flag) : Option String → Except Refusal (List Flag)
  | none => .ok [flag]
  | some value =>
    if value = "" ∨ ['-', '-'].isPrefixOf name.toList then .error (.ignoredValue flag value)
    else letters flag value.toList

def finish (g : Gathered) : Request :=
  if g.extras = [] then run ⟨g.flags, g.source⟩ else refuse (.unrecognized g.extras)

def gather (g : Gathered) : List (String × Word) → List String → Request
  | [], rest => finish (if rest = [] then g else g.addRest (rest.drop 1))
  | (s, word) :: more, rest =>
    match word with
    | .plain => gather (g.addPlain s) more rest
    | .unknown => gather (g.addUnknown s) more rest
    | .option name flag value =>
      match flagsOf name flag value with
      | .error r => refuse r
      | .ok flags => if .help ∈ flags then help else gather (flags.foldl Gathered.addFlag g) more rest

def ofArguments (arguments : List String) : Request :=
  let before := arguments.takeWhile (· ≠ "--")
  match before.mapM fun s => (Word.classify s).map (s, ·) with
  | .error r => refuse r
  | .ok words => gather .initial words (arguments.dropWhile (· ≠ "--"))

end Request

def usage : String :=
  "usage: gpu-layout [-h] [--version] [--dump-parse] [--members] [--json]\n" ++
  "                  [--llvm] [--fatal] [--traceback]\n" ++
  "                  [source]\n"

def help : String :=
  usage ++ "\nCompute GPU type layouts\n\n" ++
  "positional arguments:\n" ++
  "  source        Path to a type table description\n\n" ++
  "options:\n" ++
  "  -h, --help    show this help message and exit\n" ++
  "  --version     Show version and exit\n" ++
  "  --dump-parse  Print raw Lark tree\n" ++
  "  --members     Show struct member byte ranges\n" ++
  "  --json        Print the layout table as JSON\n" ++
  "  --llvm        Show the padded LLVM type of each entry\n" ++
  "  --fatal       Treat internal layout errors as fatal instead of reporting\n" ++
  "                them\n" ++
  "  --traceback   Print full traceback on fatal layout errors (for debugging)\n"

end ShaderLayout.Command
