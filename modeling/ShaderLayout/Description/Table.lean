import ShaderLayout.Constant
import ShaderLayout.Description.Attribute
import ShaderLayout.Description.Parser
import ShaderLayout.GpuType

/-!
The table of a description: its types and constants, and the names defined in it. Items are taken in
order, so a name is known only after its definition. A type expression inside another becomes an
unnamed entry, shared with equal unnamed ones; a definition always makes an entry of its own, unless
it only gives another name to a type.
-/

namespace ShaderLayout.Description

open Number

structure Table where
  types : Arena GpuType
  constants : Arena Constant
  typeNames : List (String × Handle)
  constantNames : List (String × Handle)

namespace Table

def empty : Table := ⟨.empty, .empty, [], []⟩

end Table

def predeclared : List (String × Scalar) :=
  [("bool", ⟨.bool, 1⟩), ("i32", ⟨.sint, 4⟩), ("u32", ⟨.uint, 4⟩), ("f16", ⟨.float, 2⟩),
    ("f32", ⟨.float, 4⟩), ("i64", ⟨.sint, 8⟩), ("u64", ⟨.uint, 8⟩), ("f64", ⟨.float, 8⟩)]

structure Progress where
  table : Table
  findings : List Finding

namespace Progress

def initial : Progress := ⟨.empty, []⟩

end Progress

abbrev Build := StateM Progress

namespace Build

def report (p : Problem) (r : Region) : Build Unit :=
  modify fun s => { s with findings := s.findings ++ [⟨p, r⟩] }

def fail {α : Type} (p : Problem) (r : Region) : Build (Option α) := do
  report p r
  pure none

def getTable : Build Table := do
  pure (← get).table

def setTable (t : Table) : Build Unit := modify fun s => { s with table := t }

def shareType (shape : Shape) : Build Handle := do
  let t ← getTable
  let (h, types) := t.types.fetchOrAppend ⟨shape, none⟩
  setTable { t with types }
  pure h

def shareConstant (value : ConstantValue) : Build Handle := do
  let t ← getTable
  let (h, constants) := t.constants.fetchOrAppend ⟨value, none⟩
  setTable { t with constants }
  pure h

def placeType (shape : Shape) : Option String → Build Handle
  | none => shareType shape
  | some name => do
    let t ← getTable
    setTable { t with types := t.types.append ⟨shape, some name⟩ }
    pure t.types.next

def resolveType (name : Token) : Build (Option Handle) := do
  let t ← getTable
  match t.typeNames.lookup name.text, predeclared.lookup name.text with
  | some h, _ => pure (some h)
  | none, some scalar => pure (some (← shareType (.scalar scalar)))
  | none, none =>
    if (t.constantNames.lookup name.text).isSome then
      fail (.wrongSort name.text "constant" "type") name.region
    else fail (.unknownName name.text) name.region

def component (name : Token) : Build (Option Scalar) := do
  match ← resolveType name with
  | none => pure none
  | some h =>
    match ((← getTable).types.get? h).map GpuType.shape with
    | some (.scalar s) => pure (some s)
    | _ => fail (.wrongComponent name.text "scalar type") name.region

def vectorSize (what : String) (t : Token) : Build (Option VectorSize) :=
  match (Numeral.literal? t.text).bind fun p => VectorSize.ofInt? p.1 with
  | some n => pure (some n)
  | none => fail (.invalidSize what t.text) t.region

def vector (size name : Token) : Build (Option Shape) := do
  let n ← vectorSize "vector" size
  let s ← component name
  pure (match n, s with
    | some n, some s => some (.vector n s)
    | _, _ => none)

def matrix (columns rows name : Token) : Build (Option Shape) := do
  let c ← vectorSize "matrix" columns
  let r ← vectorSize "matrix" rows
  match ← component name with
  | none => pure none
  | some s =>
    if s.kind = .float then
      pure (match c, r with
        | some c, some r => some (.matrix c r s.width)
        | _, _ => none)
    else fail (.wrongComponent name.text "float scalar") name.region

def valuePointer (region : Region) : Option Handle → Build (Option Shape)
  | none => pure none
  | some h => do
    match (← getTable).types.get? h with
    | some ⟨.scalar s, _⟩ => pure (some (.valuePointer none s))
    | some ⟨.vector n s, _⟩ => pure (some (.valuePointer (some n) s))
    | some t => fail (.wrongTarget t.text) region
    | none => pure none

def lengthValue (n : Int) (suffix : Numeral.Suffix) : ScalarValue :=
  if suffix = .signed ∨ n < 0 then .sint n else .uint n

def arrayLength : Option Token → Build (Option ArrayLength)
  | none => pure (some .dynamic)
  | some t =>
    if t.terminal = .name then do
      let table ← getTable
      match table.constantNames.lookup t.text with
      | some h => pure (some (.constant h))
      | none =>
        if (table.typeNames.lookup t.text).isSome ∨ (predeclared.lookup t.text).isSome then
          fail (.wrongSort t.text "type" "constant") t.region
        else fail (.unknownName t.text) t.region
    else
      match Numeral.literal? t.text with
      | none => fail (.invalidLiteral t.text) t.region
      | some (n, suffix) => do
        pure (some (.constant (← shareConstant (.scalar 4 (lengthValue n suffix)))))

def image (dimension : Token) (flag : Option Token) : Build (Option Shape) :=
  match ImageDimension.ofTag? dimension.text, flag with
  | none, _ => fail (.unknownDimension dimension.text) dimension.region
  | some d, none => pure (some (.image d false))
  | some d, some t =>
    if t.text = "arrayed" then pure (some (.image d true))
    else fail (.malformed ("unexpected '" ++ t.text ++ "', expected 'arrayed'")) t.region

def attributes (allowed : List AttributeKind) (target : String) (as : List Attribute) :
    Build (Option Accepted) := do
  let (accepted, findings) := Attribute.judgeAll allowed target [] as
  modify fun s => { s with findings := s.findings ++ findings }
  pure (if findings = [] then some accepted else none)

def placing (name : Option String) (shape : Build (Option Shape)) : Build (Option Handle) := do
  match ← shape with
  | none => pure none
  | some s => pure (some (← placeType s name))

end Build

namespace Body

def target : Body → String
  | named _ => "a type reference"
  | vector .. => "vector type"
  | matrix .. => "matrix type"
  | pointer _ => "pointer type"
  | valuePointer _ => "value pointer type"
  | array .. => "array type"
  | struct _ => "struct type"
  | image .. => "image type"
  | sampler false => "sampler type"
  | sampler true => "sampler comparison type"

def allowed : Body → List AttributeKind
  | array .. => [.stride]
  | _ => []

end Body

namespace Build

mutual

def typeExpr : TypeExpr → Option String → Build (Option Handle)
  | .mk as region b, name => do
    match ← attributes b.allowed b.target as with
    | none => pure none
    | some accepted => body region accepted name b

def body (region : Region) (accepted : Accepted) (name : Option String) : Body → Build (Option Handle)
  | .named n => resolveType n
  | .vector size c => placing name (vector size c)
  | .matrix columns rows c => placing name (matrix columns rows c)
  | .pointer target => placing name do
    pure ((← typeExpr target none).map .pointer)
  | .valuePointer target => placing name do
    valuePointer target.region (← typeExpr target none)
  | .array element length => placing name do
    let base ← typeExpr element none
    let n ← arrayLength length
    pure (match base, n with
      | some base, some n => some (.array base n (accepted.lookup .stride))
      | _, _ => none)
  | .struct ms => placing name do
    match ← members ms [] with
    | none => pure none
    | some [] => do
      report (.emptyStruct (name.getD "<anonymous>")) region
      pure (some (.struct []))
    | some (m :: rest) => pure (some (.struct (m :: rest)))
  | .image dimension flag => placing name (image dimension flag)
  | .sampler comparison => placing name (pure (some (.sampler comparison)))

def member (seen : List String) : Member → Build (Option StructMember)
  | .mk as name type => do
    let accepted ← attributes [.align, .size] "struct member" as
    let ty ← typeExpr type none
    if name.text ∈ seen then fail (.alreadyDefined name.text) name.region
    else pure (match accepted, ty with
      | some a, some h => some ⟨h, some name.text, a.lookup .align, a.lookup .size⟩
      | _, _ => none)

def members : List Member → List String → Build (Option (List StructMember))
  | [], _ => pure (some [])
  | .mk as name type :: rest, seen => do
    let first ← member seen (.mk as name type)
    let others ← members rest (name.text :: seen)
    pure (match first, others with
      | some m, some ms => some (m :: ms)
      | _, _ => none)

end

def literal : Literal → Build (Option ConstantValue)
  | .integer t =>
    match Numeral.literal? t.text with
    | none => fail (.invalidLiteral t.text) t.region
    | some (n, suffix) => pure (some (.scalar 4 (if suffix = .unsigned then .uint n else .sint n)))
  | .float t => do
    -- Every literal makes an object of its own.
    let table ← getTable
    pure (some (.scalar 4 (.float ⟨Decimal.read t.text, table.constants.size⟩)))
  | .boolean b _ => pure (some (.scalar 1 (.bool b)))

def checkFresh (name : Token) : Build Bool := do
  let t ← getTable
  if (t.typeNames.lookup name.text).isSome ∨ (t.constantNames.lookup name.text).isSome ∨
      (predeclared.lookup name.text).isSome then
    report (.alreadyDefined name.text) name.region
    pure false
  else pure true

def defineConstant (name : Token) (value : ConstantValue) : Build Unit := do
  let t ← getTable
  setTable { t with
    constants := t.constants.append ⟨value, some name.text⟩
    constantNames := t.constantNames ++ [(name.text, t.constants.next)] }

def defineType (name : Token) (h : Handle) : Build Unit := do
  let t ← getTable
  setTable { t with typeNames := t.typeNames ++ [(name.text, h)] }

def item : Item → Build Unit
  | .constant _ name value => do
    match ← literal value with
    | none => pure ()
    | some v =>
      if ← checkFresh name then defineConstant name v
  | .type _ name expr => do
    if ← checkFresh name then
      match ← typeExpr expr (some name.text) with
      | none => pure ()
      | some h => defineType name h

def items (is : List Item) : Build Unit := is.forM item

end Build

structure Reading where
  table? : Option Table
  findings : List Finding

namespace Reading

def hasErrors (r : Reading) : Bool := r.findings.any (·.problem.isError)

def accepted? (r : Reading) : Option Table := if r.hasErrors then none else r.table?

def report (r : Reading) (before : Report) : Report := r.findings.foldl Finding.addTo before

end Reading

def build (is : List Item) : Progress := ((Build.items is).run .initial).2

def read (source : String) : Reading :=
  match parse source with
  | .error fault => ⟨none, [⟨.malformed fault.text, ⟨fault.position, fault.position⟩⟩]⟩
  | .ok is =>
    let s := build is
    ⟨some s.table, s.findings⟩

end ShaderLayout.Description
