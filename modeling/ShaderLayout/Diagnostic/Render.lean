import ShaderLayout.Diagnostic
import ShaderLayout.Number.Integer
import ShaderLayout.Text.Line

namespace ShaderLayout.Report

open Number

structure Style where
  color : Bool
  unicode : Bool
  deriving DecidableEq, Repr

def reset : String := "\x1b[0m"
def bold : String := "\x1b[1m"
def dim : String := "\x1b[2m"
def red : String := "\x1b[31m"
def yellow : String := "\x1b[33m"
def cyan : String := "\x1b[36m"
def gray : String := "\x1b[90m"

def repeated (n : Nat) (c : Char) : String := String.ofList (List.replicate n c)

def location (r : Report) (d : Diagnostic) : String :=
  let file := match d.filename with
    | none => r.filename
    | some f => if f = "" then r.filename else f
  match d.span with
  | none => file
  | some s => file ++ ":" ++ Numeral.text s.line ++ ":" ++ Numeral.text s.col

def sentence (message : String) : String :=
  if message.toList.getLast? = some '.' then message else message ++ "."

def markColor (d : Diagnostic) : String := if d.kind = .error then red else yellow

def head (r : Report) (style : Style) (d : Diagnostic) : String :=
  if style.color then
    let kind := bold ++ markColor d ++ (if d.kind = .error then "error" else "warning") ++ reset
    cyan ++ r.location d ++ reset ++ ": " ++ kind ++ " [" ++ dim ++ d.code ++ reset ++ "]: " ++ sentence d.message
  else r.location d ++ ": " ++ d.kind.tag ++ " [" ++ d.code ++ "]: " ++ sentence d.message

def lineText (lines : List (List Char)) (n : Int) : String :=
  if 1 ≤ n then String.ofList (lines.getD (n - 1).toNat []) else ""

def snippet (style : Style) (d : Diagnostic) (head line : String) (col : Int) : List String :=
  let start := (max 1 col).toNat
  let gap := repeated (start - 1) ' '
  let guide := repeated start '─'
  match style.unicode, style.color with
  | true, true =>
    [gray ++ "  ╭──┤ " ++ reset ++ head,
      gray ++ "  │" ++ reset ++ " " ++ line,
      gray ++ "  │" ++ reset ++ " " ++ markColor d ++ gap ++ "┯" ++ reset,
      gray ++ "  ╰" ++ guide ++ reset ++ markColor d ++ "╯" ++ reset]
  | true, false => ["  ╭──┤ " ++ head, "  │  " ++ line, "  │  " ++ gap ++ "┯", "  ╰" ++ guide ++ "╯"]
  | false, _ => [head, "  | " ++ line, "  ` " ++ gap ++ "^"]

def sourceLines (r : Report) : Option (List (List Char)) :=
  match r.source with
  | none => none
  | some s => if s = "" then none else some (Text.Line.split s.toList)

def itemLines (r : Report) (style : Style) (d : Diagnostic) : List String :=
  match d.span, r.sourceLines with
  | some s, some lines => snippet style d (r.head style d) (lineText lines s.line) s.col
  | _, _ => [r.head style d]

def render (r : Report) (style : Style) : String :=
  String.intercalate "\n" (r.items.flatMap (r.itemLines style))

structure Terminal where
  interactive : Bool
  noColor : Bool
  noUnicode : Bool
  dumb : Bool
  deriving DecidableEq, Repr

namespace Terminal

def style (t : Terminal) (color unicode : Option Bool) : Style :=
  ⟨color.getD (t.interactive && !t.noColor && !t.dumb), unicode.getD (t.interactive && !t.noUnicode && !t.dumb)⟩

end Terminal

def print (r : Report) (style : Style) : String := if r.items = [] then "" else r.render style ++ "\n"

end ShaderLayout.Report
