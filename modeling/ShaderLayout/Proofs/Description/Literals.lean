import ShaderLayout.Proofs.Description.Lexical
import ShaderLayout.Proofs.Number.Reading

namespace ShaderLayout.Description

open Number Numeral

lemma Spells.integer_parts {s : List Char} (h : Spells (some .integer) s) : ∃ sign digits suffix,
    sign ∈ [[], ['-']] ∧ Digits digits ∧ suffix ∈ [[], ['i'], ['u']] ∧ s = sign ++ (digits ++ suffix) := by
  generalize hk : some Terminal.integer = k at h
  cases h with
  | integer hs hd hx => exact ⟨_, _, _, hs, hd, hx, rfl⟩
  | word =>
    have hword := Option.some.inj hk
    unfold Terminal.ofWord at hword
    split at hword <;> cases hword
  | mark hm =>
    obtain rfl := Option.some.inj hk
    unfold Terminal.ofMark? at hm
    split at hm <;> cases hm
  | _ => cases hk

lemma exists_suffix {suffix : List Char} (hx : suffix ∈ [[], ['i'], ['u']]) : ∃ x : Suffix, x.text.toList = suffix := by
  simp only [List.mem_cons, List.not_mem_nil, or_false] at hx
  obtain rfl | rfl | rfl := hx
  · exact ⟨.none, rfl⟩
  · exact ⟨.signed, rfl⟩
  · exact ⟨.unsigned, rfl⟩

lemma Spells.spelled {s : List Char} (h : Spells (some .integer) s) :
    ∃ t ds n x, Suffixed s t x ∧ Spelled t ds n := by
  obtain ⟨sign, digits, suffix, hs, hd, hx, rfl⟩ := h.integer_parts
  obtain ⟨x, rfl⟩ := exists_suffix hx
  have hlast : ∀ c ∈ (sign ++ digits).getLast?, c.isDigit = true := by
    intro c hc
    rw [List.getLast?_append_of_ne_nil _ hd.1] at hc
    exact hd.2 c (List.mem_of_getLast? hc)
  have hsign : sign ∈ [[], ['+'], ['-']] := by
    simp only [List.mem_cons, List.not_mem_nil, or_false] at hs
    obtain rfl | rfl := hs <;> simp
  rw [← List.append_assoc]
  exact ⟨_, _, _, x, suffixed_of_digit hlast x, spelled_of_grouped hsign (grouped_of_digits hd.1 hd.2)⟩

/-- A text is read as a number exactly if it is one apart from its suffix, not too long, and not negative where the
suffix says so; every number that can be written is read back; and an integer token is read as what it spells, unless it
is too long or negative against its suffix. -/
theorem literals_exact :
    (∀ s n x, literal? s = some (n, x) ↔ ∃ t ds, Suffixed s.toList t x ∧ Spelled t ds n ∧
      ds.length ≤ maxDigits ∧ ¬ (x = .unsigned ∧ n < 0)) ∧
    (∀ n x, Writable n → (x = .unsigned → 0 ≤ n) → literal? (text n ++ x.text) = some (n, x)) ∧
    (∀ s : String, Spells (some .integer) s.toList → ∃ t ds n x, Suffixed s.toList t x ∧ Spelled t ds n ∧
      literal? s = if maxDigits < ds.length ∨ x = .unsigned ∧ n < 0 then none else some (n, x)) := by
  refine ⟨fun s n x => literal?_eq_some_iff, fun n x => literal?_text, fun s hs => ?_⟩
  obtain ⟨t, ds, n, x, hx, hspelled⟩ := hs.spelled
  exact ⟨t, ds, n, x, hx, hspelled, hx.literal? hspelled⟩

theorem literals_exact_unsigned :
    Writable 12 ∧ (0 : Int) ≤ 12 ∧ literal? (text 12 ++ Suffix.unsigned.text) = some (12, .unsigned) ∧
      Spells (some .integer) "-12u".toList ∧ ∃ t ds n x, Suffixed "-12u".toList t x ∧ Spelled t ds n ∧
        (maxDigits < ds.length ∨ x = .unsigned ∧ n < 0) := by
  obtain ⟨-, hwritten, htoken⟩ := literals_exact
  have hwritable : Writable 12 := writable_of_lt (by decide)
  have hspells : Spells (some .integer) (['-'] ++ (['1', '2'] ++ ['u'])) :=
    .integer (by simp) ⟨by simp, by simp⟩ (by simp)
  obtain ⟨t, ds, n, x, hx, hspelled, hvalue⟩ := htoken "-12u" hspells
  have hnone : literal? "-12u" = none := by decide
  rw [hnone] at hvalue
  refine ⟨hwritable, by decide, hwritten 12 .unsigned hwritable fun _ => by decide, hspells, t, ds, n, x, hx, hspelled,
    ?_⟩
  by_contra hread
  rw [if_neg hread] at hvalue
  cases hvalue

example : literal? "-0u" = some (0, .unsigned) := by decide +kernel

end ShaderLayout.Description
