import Mathlib.Data.List.Forall2

namespace ShaderLayout.Text.Escape

def isParameter (c : Char) : Bool := 0x30 ≤ c.toNat && c.toNat ≤ 0x3f

def isIntermediate (c : Char) : Bool := 0x20 ≤ c.toNat && c.toNat ≤ 0x2f

def isFinal (c : Char) : Bool := 0x40 ≤ c.toNat && c.toNat ≤ 0x7e

def afterSequence? : List Char → Option (List Char)
  | '[' :: s =>
    match (s.dropWhile isParameter).dropWhile isIntermediate with
    | c :: rest => if isFinal c then some rest else none
    | [] => none
  | _ => none

lemma afterSequence?_length {s rest : List Char} (h : afterSequence? s = some rest) : rest.length < s.length := by
  rw [afterSequence?.eq_def] at h
  split at h
  · next r =>
    split at h
    · next c after hs =>
      obtain ⟨-, rfl⟩ : isFinal c = true ∧ after = rest := by simpa using h
      have hle := ((List.dropWhile_suffix isIntermediate).trans (List.dropWhile_suffix isParameter (l := r))).length_le
      rw [hs, List.length_cons] at hle
      rw [List.length_cons]
      omega
    · cases h
  · cases h

def delete : List Char → List Char
  | [] => []
  | c :: s =>
    if c = '\x1b' then
      match _h : afterSequence? s with
      | some rest => delete rest
      | none => c :: delete s
    else c :: delete s
termination_by s => s.length
decreasing_by
  · exact Nat.lt_succ_of_lt (afterSequence?_length _h)
  · exact Nat.lt_succ_self _
  · exact Nat.lt_succ_self _

def plain (s : String) : String := String.ofList (delete s.toList)

lemma delete_append {s : List Char} (hs : '\x1b' ∉ s) (r : List Char) : delete (s ++ r) = s ++ delete r := by
  induction s with
  | nil => rfl
  | cons c s ih =>
    rw [List.mem_cons, not_or] at hs
    rw [List.cons_append, delete, if_neg (Ne.symm hs.1), ih hs.2, List.cons_append]

lemma afterSequence?_append {ps : List Char} (hps : ∀ c ∈ ps, isParameter c = true) {c : Char} (hc : isFinal c = true)
    (r : List Char) : afterSequence? ('[' :: ps ++ c :: r) = some r := by
  have hp : ¬ isParameter c = true := by
    simp only [isFinal, isParameter, Bool.and_eq_true, decide_eq_true_eq] at hc ⊢
    omega
  have hi : ¬ isIntermediate c = true := by
    simp only [isFinal, isIntermediate, Bool.and_eq_true, decide_eq_true_eq] at hc ⊢
    omega
  rw [List.cons_append, afterSequence?, List.dropWhile_append_of_pos hps, List.dropWhile_cons_of_neg hp,
    List.dropWhile_cons_of_neg hi]
  exact if_pos hc

lemma delete_sequence {s rest : List Char} (h : afterSequence? s = some rest) :
    delete ('\x1b' :: s) = delete rest := by
  rw [delete, if_pos rfl]
  split
  · next rest' h' =>
    obtain rfl := Option.some.inj (h.symm.trans h')
    rfl
  · next h' =>
    rw [h] at h'
    cases h'

def Leaves (s s' : String) : Prop := ∀ r, delete (s.toList ++ r) = s'.toList ++ delete r

namespace Leaves

variable {s s' t t' : String}

lemma plain_eq (h : Leaves s s') : plain s = s' := by
  have hnil := h []
  rw [delete, List.append_nil, List.append_nil] at hnil
  rw [plain, hnil, String.ofList_toList]

lemma refl (hs : '\x1b' ∉ s.toList) : Leaves s s :=
  delete_append hs

lemma append (hs : Leaves s s') (ht : Leaves t t') : Leaves (s ++ t) (s' ++ t') := by
  intro r
  rw [String.toList_append, String.toList_append, List.append_assoc, hs, ht, List.append_assoc]

lemma graphic {p : List Char} (hs : s.toList = '\x1b' :: '[' :: p ++ ['m']) (hp : p.all isParameter = true) :
    Leaves s "" := by
  intro r
  rw [hs, List.append_assoc]
  exact delete_sequence (afterSequence?_append (List.all_eq_true.1 hp) rfl r)

lemma before (hs : Leaves s "") (ht : Leaves t t') : Leaves (s ++ t) t' := by
  simpa using hs.append ht

lemma after (hs : Leaves s s') (ht : Leaves t "") : Leaves (s ++ t) s' := by
  simpa using hs.append ht

lemma intercalate {sep : String} (hsep : '\x1b' ∉ sep.toList) {ss ts : List String} (h : List.Forall₂ Leaves ss ts) :
    Leaves (sep.intercalate ss) (sep.intercalate ts) := by
  induction h with
  | nil => exact refl (by simp)
  | cons hs hrest ih =>
    cases hrest with
    | nil => simpa using hs
    | cons hs' hrest' =>
      rw [String.intercalate_cons_cons, String.intercalate_cons_cons]
      exact (hs.append (refl hsep)).append ih

end Leaves

end ShaderLayout.Text.Escape
