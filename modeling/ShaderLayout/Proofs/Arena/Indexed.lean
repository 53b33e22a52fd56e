import ShaderLayout.Proofs.Arena
import ShaderLayout.Proofs.Constant
import ShaderLayout.GpuType

/-!
Runs of an arena. Whatever is appended or fetched, in whatever order, the first equal entry is the one that is found.
An index in which a value stays at the handle it was first given finds the same entries without a search, as long as
equality is symmetric and transitive.
-/

namespace ShaderLayout.Arena

variable {α : Type}

inductive Request (α : Type)
  | append (x : α)
  | fetchOrAppend (x : α)

section Runs

variable [BEq α] {a : Arena α} {x : α} {h : Handle}

def answer (a : Arena α) : Request α → Handle × Arena α
  | .append x => (a.next, a.append x)
  | .fetchOrAppend x => a.fetchOrAppend x

def after (a : Arena α) (rs : List (Request α)) : Arena α := rs.foldl (fun a r => (a.answer r).2) a

lemma find?_append (a : Arena α) (x v : α) :
    (a.append x).find? v = (a.find? v).or (if x == v then some a.next else none) := by
  rw [find?_eq_toList, find?_eq_toList, toList_append, List.findIdx?_append, Option.map_or]
  congr 1
  by_cases hx : (x == v) = true
  · simp [List.findIdx?_cons, hx, next, size, toList]
  · simp [List.findIdx?_cons, hx]

end Runs

abbrev Index (α : Type) := List (α × Handle)

namespace Index

variable [BEq α]

def get? (d : Index α) (x : α) : Option Handle := (d.find? (·.1 == x)).map Prod.snd

def insertIfNew (d : Index α) (x : α) (h : Handle) : Index α :=
  match d.get? x with
  | some _ => d
  | none => d ++ [(x, h)]

variable {d : Index α} {x v : α}

lemma get?_concat (d : Index α) (x v : α) (h : Handle) :
    get? (d ++ [(x, h)]) v = (d.get? v).or (if x == v then some h else none) := by
  rw [get?, get?, List.find?_append, Option.map_or]
  congr 1
  by_cases hx : (x == v) = true
  · simp [hx]
  · simp [hx]

lemma get?_congr [PartialEquivBEq α] (hx : (x == v) = true) : d.get? x = d.get? v := by
  have hkey : ∀ p : α × Handle, (p.1 == x) = (p.1 == v) := by
    intro p
    rw [Bool.eq_iff_iff]
    exact ⟨fun h => PartialEquivBEq.trans h hx, fun h => PartialEquivBEq.trans h (PartialEquivBEq.symm hx)⟩
  simp only [get?, hkey]

lemma get?_insertIfNew [PartialEquivBEq α] (d : Index α) (x v : α) (h : Handle) :
    (d.insertIfNew x h).get? v = (d.get? v).or (if x == v then some h else none) := by
  rw [insertIfNew]
  cases hx : d.get? x with
  | none => exact get?_concat d x v h
  | some k =>
    by_cases hv : (x == v) = true
    · rw [← get?_congr hv, hx, Option.some_or]
    · rw [if_neg hv, Option.or_none]

end Index

structure Indexed (α : Type) where
  arena : Arena α
  index : Index α

namespace Indexed

variable [BEq α]

def ofList (xs : List α) : Indexed α :=
  ⟨.ofList xs, xs.zipIdx.foldl (fun d p => d.insertIfNew p.1 ⟨p.2⟩) []⟩

def append (s : Indexed α) (x : α) : Handle × Indexed α :=
  (s.arena.next, ⟨s.arena.append x, s.index.insertIfNew x s.arena.next⟩)

def fetchOrAppend (s : Indexed α) (x : α) : Handle × Indexed α :=
  match s.index.get? x with
  | some h => (h, s)
  | none => s.append x

def answer (s : Indexed α) : Request α → Handle × Indexed α
  | .append x => s.append x
  | .fetchOrAppend x => s.fetchOrAppend x

def after (s : Indexed α) (rs : List (Request α)) : Indexed α := rs.foldl (fun s r => (s.answer r).2) s

def InStep (s : Indexed α) : Prop := ∀ x, s.index.get? x = s.arena.find? x

section Steps

variable [PartialEquivBEq α] {s : Indexed α}

lemma InStep.append (hs : s.InStep) (x : α) : (s.append x).2.InStep := by
  intro v
  rw [Indexed.append, Index.get?_insertIfNew, find?_append, hs v]

lemma InStep.answer (hs : s.InStep) (r : Request α) :
    (s.answer r).2.InStep ∧ (s.answer r).1 = (s.arena.answer r).1 ∧ (s.answer r).2.arena = (s.arena.answer r).2 := by
  cases r with
  | append x => exact ⟨hs.append x, rfl, rfl⟩
  | fetchOrAppend x =>
    rw [Indexed.answer, Indexed.fetchOrAppend, Arena.answer, Arena.fetchOrAppend, hs x]
    cases s.arena.find? x with
    | some h => exact ⟨hs, rfl, rfl⟩
    | none => exact ⟨hs.append x, rfl, rfl⟩

lemma InStep.after (hs : s.InStep) (rs : List (Request α)) :
    (s.after rs).InStep ∧ (s.after rs).arena = s.arena.after rs := by
  induction rs generalizing s with
  | nil => exact ⟨hs, rfl⟩
  | cons r rs ih =>
    obtain ⟨hs', -, harena⟩ := hs.answer r
    obtain ⟨hstep, hafter⟩ := ih hs'
    refine ⟨hstep, hafter.trans ?_⟩
    rw [harena]
    rfl

end Steps

end Indexed

section Constants

variable {a : Arena Constant} {c d : Constant}

end Constants

end ShaderLayout.Arena
