import Mathlib.Data.List.Basic
import Mathlib.Data.List.Induction
import ShaderLayout.Text.Line

namespace ShaderLayout.Text.Line

variable {m r s : List Char}

def shown (line : List Char) : List Char := if line.getLast? = some '\r' then line.dropLast else line

def feedLines (s : List Char) : List (List Char) := (s.splitOn '\n').map shown

def Unbroken (line : List Char) : Prop := ∀ c ∈ line, isBreak c = false

lemma shown_cases (line : List Char) : line = shown line ∨ line = shown line ++ ['\r'] := by
  rw [shown]
  split
  · next h => exact .inr (List.dropLast_append_getLast? _ h).symm
  · exact .inl rfl

lemma shown_append_cons {c : Char} (hc : c ≠ '\r') (a b : List Char) :
    ∃ b', shown (a ++ c :: b) = a ++ c :: b' := by
  cases b using List.reverseRecOn with
  | nil => exact ⟨[], if_neg (by simpa using hc)⟩
  | append_singleton b d =>
    rw [← List.cons_append, ← List.append_assoc, shown, List.getLast?_concat, List.dropLast_concat]
    split
    · exact ⟨b, rfl⟩
    · exact ⟨b ++ [d], by simp⟩

section Splitting

lemma splitFirst_subset (s : List Char) : (splitFirst s).1 ⊆ s ∧ (splitFirst s).2 ⊆ s := by
  induction s using splitFirst.induct with
  | case1 => simp [splitFirst]
  | case2 r => simp [splitFirst]
  | case3 c r hr hc =>
    rw [splitFirst.eq_3 _ _ hr, if_pos hc]
    simp
  | case4 c r hr hc line rest _ ih =>
    rw [splitFirst.eq_3 _ _ hr, if_neg hc]
    exact ⟨List.cons_subset_cons c ih.1, List.subset_cons_of_subset c ih.2⟩

lemma split_subset {line : List Char} (hs : line ∈ split s) : line ⊆ s := by
  induction s using split.induct with
  | case1 =>
    rw [split] at hs
    cases hs
  | case2 c r ih =>
    obtain ⟨hfirst, hrest⟩ := splitFirst_subset (c :: r)
    rw [split] at hs
    obtain rfl | hs := List.mem_cons.1 hs
    · exact hfirst
    · exact List.Subset.trans (ih hs) hrest

lemma splitFirst_append (hm : Unbroken m) : splitFirst (m ++ s) = (m ++ (splitFirst s).1, (splitFirst s).2) := by
  induction m with
  | nil => rfl
  | cons c m ih =>
    obtain ⟨hc, hm⟩ := List.forall_mem_cons.1 hm
    rw [List.cons_append, splitFirst.eq_3, if_neg (by simp [hc]), ih hm]
    · rfl
    · rintro r rfl
      cases hc

lemma splitFirst_feed (hm : Unbroken (shown m)) : splitFirst (m ++ '\n' :: r) = (shown m, r) := by
  obtain h | h := shown_cases m
  · conv_lhs => rw [h, splitFirst_append hm]
    exact congrArg (·, r) (List.append_nil _)
  · conv_lhs => rw [h, List.append_assoc, splitFirst_append hm]
    exact congrArg (·, r) (List.append_nil _)

lemma splitFirst_last (hm : Unbroken (shown m)) : splitFirst m = (shown m, []) := by
  obtain h | h := shown_cases m
  · conv_lhs => rw [h, ← List.append_nil (shown m), splitFirst_append hm]
    exact congrArg (·, []) (List.append_nil _)
  · conv_lhs => rw [h, splitFirst_append hm]
    exact congrArg (·, []) (List.append_nil _)

lemma split_feed (hm : Unbroken (shown m)) (r : List Char) : split (m ++ '\n' :: r) = shown m :: split r := by
  obtain ⟨c, t, ht⟩ := List.exists_cons_of_ne_nil (List.append_ne_nil_of_right_ne_nil m (List.cons_ne_nil '\n' r))
  rw [ht, split, ← ht, splitFirst_feed hm]

lemma split_last (hm : Unbroken (shown m)) (hne : m ≠ []) : split m = [shown m] := by
  obtain ⟨c, t, ht⟩ := List.exists_cons_of_ne_nil hne
  rw [ht, split, ← ht, splitFirst_last hm, split]

lemma feedLines_last (hm : '\n' ∉ m) : feedLines m = [shown m] := by
  rw [feedLines, List.splitOn_eq_singleton hm, List.map_singleton]

lemma feedLines_feed (hm : '\n' ∉ m) (r : List Char) : feedLines (m ++ '\n' :: r) = shown m :: feedLines r := by
  rw [feedLines, List.splitOn_append_cons_self_of_not_mem hm, List.map_cons, feedLines]

lemma split_getD {n : Nat} (h : ∀ line ∈ (feedLines s).take (n + 1), Unbroken line) :
    (split s).getD n [] = (feedLines s).getD n [] := by
  induction hs : s.length using Nat.strongRecOn generalizing s n with
  | ind k ih =>
    subst hs
    by_cases hfeed : '\n' ∈ s
    · obtain ⟨m, r, rfl, hm⟩ := List.eq_append_cons_of_mem hfeed
      rw [feedLines_feed hm, List.take_succ_cons, List.forall_mem_cons] at h
      rw [feedLines_feed hm, split_feed h.1]
      cases n with
      | zero => rfl
      | succ n =>
        have hlt : r.length < (m ++ '\n' :: r).length := by
          rw [List.length_append, List.length_cons]
          omega
        exact ih r.length hlt h.2 rfl
    · rw [feedLines_last hfeed, List.take_succ_cons, List.forall_mem_cons] at h
      rw [feedLines_last hfeed]
      obtain rfl | hne := eq_or_ne s []
      · rw [split]
        cases n <;> rfl
      · rw [split_last h.1 hne]

end Splitting

end ShaderLayout.Text.Line
