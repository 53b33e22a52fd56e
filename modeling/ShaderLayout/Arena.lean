import ShaderLayout.Number.Integer

/-!
Arenas: collections that only grow, whose entries are addressed by handles. A handle stays valid, and the order of the
entries is the order of their handles.
-/

namespace ShaderLayout

open Number

structure Handle where
  index : Nat
  deriving DecidableEq, Repr, Inhabited

namespace Handle

def ofInt? (n : Int) : Option Handle := if n < 0 then none else some ⟨n.toNat⟩

def text (h : Handle) : String := "[" ++ toString h.index ++ "]"

def Writable (h : Handle) : Prop := Numeral.Writable h.index

instance : DecidablePred Writable := fun h => inferInstanceAs (Decidable (Numeral.Writable h.index))

def text? (h : Handle) : Option String := if h.Writable then some h.text else none

def sort (hs : List Handle) : List Handle := hs.mergeSort fun a b => decide (a.index ≤ b.index)

end Handle

structure Arena (α : Type) where
  items : Array α
  deriving Repr, DecidableEq

namespace Arena

variable {α : Type}

def empty : Arena α := ⟨#[]⟩

def ofList (xs : List α) : Arena α := ⟨xs.toArray⟩

def toList (a : Arena α) : List α := a.items.toList

def size (a : Arena α) : Nat := a.items.size

def contains (a : Arena α) (h : Handle) : Bool := decide (h.index < a.size)

def get? (a : Arena α) (h : Handle) : Option α := a.items[h.index]?

def next (a : Arena α) : Handle := ⟨a.size⟩

def append (a : Arena α) (x : α) : Arena α := ⟨a.items.push x⟩

def handles (a : Arena α) : List Handle := (List.range a.size).map Handle.mk

/-- Whether a handle is written without failing. There are never so many entries that their numbers get too long, so
that only a handle from elsewhere can have too many digits. -/
def Writes (a : Arena α) (h : Handle) : Prop := h.index < a.size ∨ h.Writable

instance (a : Arena α) : DecidablePred a.Writes := fun h => inferInstanceAs (Decidable (h.index < a.size ∨ h.Writable))

variable [BEq α]

def find? (a : Arena α) (x : α) : Option Handle := (a.items.findIdx? (· == x)).map Handle.mk

def fetchOrAppend (a : Arena α) (x : α) : Handle × Arena α :=
  match a.find? x with
  | some h => (h, a)
  | none => (a.next, a.append x)

omit [BEq α]

@[simp] theorem toList_append (a : Arena α) (x : α) : (a.append x).toList = a.toList ++ [x] := by
  simp [append, toList]

@[simp] theorem size_append (a : Arena α) (x : α) : (a.append x).size = a.size + 1 := by
  simp [append, size]

theorem get?_eq_toList (a : Arena α) (h : Handle) : a.get? h = a.toList[h.index]? := by
  simp [get?, toList]

@[simp] theorem get?_append_next (a : Arena α) (x : α) : (a.append x).get? a.next = some x := by
  simp [get?, append, next, size]

end Arena

end ShaderLayout
