import Mathlib
import ShaderLayout.Description.Lexer

/-!
What is a token, apart from how one is found: `Spells` gives the texts of each terminal and of what is skipped, and
a text splits into the longest of them. The tokens found are those of the only split.
-/

namespace ShaderLayout.Description

section Spelling

def Digits (s : List Char) : Prop := s ≠ [] ∧ ∀ c ∈ s, c.isDigit = true

inductive Exponent : List Char → Prop
  | none : Exponent []
  | some {e : Char} {sign digits : List Char} (he : e = 'e' ∨ e = 'E') (hs : sign ∈ [[], ['+'], ['-']])
      (hd : Digits digits) : Exponent (e :: (sign ++ digits))

/-- The texts of a terminal. Blanks and comments have none. -/
inductive Spells : Option Terminal → List Char → Prop
  | blank {s : List Char} (hne : s ≠ []) (h : ∀ c ∈ s, Lexeme.isSpace c = true) : Spells none s
  | comment {s : List Char} (h : ∀ c ∈ s, c ≠ '\n') : Spells none ('/' :: '/' :: s)
  | word {c : Char} {s : List Char} (hc : Lexeme.isNameStart c = true) (hs : ∀ c ∈ s, Lexeme.isNameRest c = true) :
      Spells (some (.ofWord (String.ofList (c :: s)))) (c :: s)
  | mark {c : Char} {k : Terminal} (h : Terminal.ofMark? c = some k) : Spells (some k) [c]
  | integer {sign digits suffix : List Char} (hs : sign ∈ [[], ['-']]) (hd : Digits digits)
      (hx : suffix ∈ [[], ['i'], ['u']]) : Spells (some .integer) (sign ++ (digits ++ suffix))
  | float {sign digits fraction exponent : List Char} (hs : sign ∈ [[], ['-']]) (hd : Digits digits)
      (hf : ∀ c ∈ fraction, c.isDigit = true) (he : Exponent exponent) :
      Spells (some .float) (sign ++ (digits ++ '.' :: (fraction ++ exponent)))

structure Longest (s : List Char) (k : Option Terminal) (t rest : List Char) : Prop where
  split : t ++ rest = s
  spelled : Spells k t
  longest : ∀ k' t', Spells k' t' → t' <+: s → t'.length ≤ t.length

def Stuck (s : List Char) : Prop := ∀ k t, Spells k t → ¬ t <+: s

/-- The tokens of a text up to a place, and the text from there on. -/
inductive Splits : Position → List Char → List Token → List Char → Position → Prop
  | here {p : Position} {s : List Char} : Splits p s [] s p
  | token {p q : Position} {s t rest rest' : List Char} {k : Terminal} {ts : List Token}
      (h : Longest s (some k) t rest) (hr : Splits (p.after t) rest ts rest' q) :
      Splits p s (⟨k, String.ofList t, ⟨p, p.after t⟩⟩ :: ts) rest' q
  | skip {p q : Position} {s t rest rest' : List Char} {ts : List Token} (h : Longest s none t rest)
      (hr : Splits (p.after t) rest ts rest' q) : Splits p s ts rest' q

lemma Spells.ne_nil {k : Option Terminal} {t : List Char} (h : Spells k t) : t ≠ [] := by
  cases h with
  | blank hne => exact hne
  | comment => simp
  | word => simp
  | mark => simp
  | integer _ hd => simp [hd.1]
  | float => simp

end Spelling

namespace Lexeme

section Runs

variable {p : Char → Bool} {s t : List Char}

lemma prefix_ofRun (f : List Char → Option Terminal) (h : ∀ c ∈ t, p c = true) (rest : List Char) :
    t <+: (ofRun f p (t ++ rest)).text := by
  rw [ofRun, List.takeWhile_append_of_pos h]
  exact List.prefix_append ..

lemma forall_text_ofRun (f : List Char → Option Terminal) (c : Char) (hc : c ∈ (ofRun f p s).text) : p c = true :=
  List.mem_takeWhile_imp hc

lemma takeWhile_digits (h : ∀ c ∈ s, c.isDigit = true) (rest : List Char) :
    (s ++ rest).takeWhile Char.isDigit = s ++ rest.takeWhile Char.isDigit :=
  List.takeWhile_append_of_pos h

lemma dropWhile_digits (h : ∀ c ∈ s, c.isDigit = true) (rest : List Char) :
    (s ++ rest).dropWhile Char.isDigit = rest.dropWhile Char.isDigit :=
  List.dropWhile_append_of_pos h

lemma digits_takeWhile (h : s.takeWhile Char.isDigit ≠ []) : Digits (s.takeWhile Char.isDigit) :=
  ⟨h, fun _ hc => List.mem_takeWhile_imp hc⟩

end Runs

section Heads

variable {c : Char} {k : Terminal}

lemma isSpace_of_isNameStart (h : isNameStart c = true) : isSpace c = false := by
  rw [Bool.eq_false_iff]
  intro hs
  simp only [isSpace, Bool.or_eq_true, decide_eq_true_eq] at hs
  obtain (((rfl | rfl) | rfl) | rfl) | rfl := hs <;> exact absurd h (by decide)

lemma isNameRest_of_isNameStart (h : isNameStart c = true) : isNameRest c = true := by
  simp only [isNameStart, Bool.or_eq_true] at h
  rcases h with h | h <;> simp [isNameRest, Char.isAlphanum, h]

lemma head_of_mark (h : Terminal.ofMark? c = some k) : isSpace c = false ∧ isNameStart c = false ∧ c ≠ '/' := by
  unfold Terminal.ofMark? at h
  split at h <;> cases h <;> exact ⟨by decide, by decide, by decide⟩

lemma isNameStart_of_isDigit (h : c.isDigit = true) : isNameStart c = false := by
  have hc : c ≠ '_' := by
    rintro rfl
    cases h
  simp only [Char.isDigit, Bool.and_eq_true, decide_eq_true_eq, UInt32.le_iff_toNat_le, ge_iff_le] at h
  change 48 ≤ c.toNat ∧ c.toNat ≤ 57 at h
  have halpha : c.isAlpha = false := by
    rw [Bool.eq_false_iff]
    intro ha
    simp only [Char.isAlpha, Char.isUpper, Char.isLower, Bool.or_eq_true, Bool.and_eq_true, decide_eq_true_eq,
      UInt32.le_iff_toNat_le, ge_iff_le] at ha
    change (65 ≤ c.toNat ∧ c.toNat ≤ 90) ∨ (97 ≤ c.toNat ∧ c.toNat ≤ 122) at ha
    omega
  simp [isNameStart, halpha, hc]

lemma head_of_number (h : c = '-' ∨ c.isDigit = true) :
    isSpace c = false ∧ isNameStart c = false ∧ c ≠ '/' ∧ Terminal.ofMark? c = none := by
  obtain rfl | h := h
  · exact ⟨by decide, by decide, by decide, by decide⟩
  refine ⟨?_, isNameStart_of_isDigit h, ?_, ?_⟩
  · rw [Bool.eq_false_iff]
    intro hs
    simp only [isSpace, Bool.or_eq_true, decide_eq_true_eq] at hs
    obtain (((rfl | rfl) | rfl) | rfl) | rfl := hs <;> cases h
  · rintro rfl
    cases h
  · cases hm : Terminal.ofMark? c with
    | none => rfl
    | some k =>
      unfold Terminal.ofMark? at hm
      split at hm <;> cases hm <;> cases h

lemma next?_of_number {r : List Char} (h : c = '-' ∨ c.isDigit = true) : next? (c :: r) = number? (c :: r) := by
  obtain ⟨hs, hn, hc, hm⟩ := head_of_number h
  simp [next?, hs, hn, hc, hm]

end Heads

section Found

variable {s : List Char} {l : Lexeme}

lemma splitSign_spelled (p : Char → Bool) (s : List Char) :
    (splitSign p s).1 = [] ∨ ∃ c, p c = true ∧ (splitSign p s).1 = [c] := by
  cases s with
  | nil => exact .inl rfl
  | cons c r =>
    by_cases h : p c = true
    · exact .inr ⟨c, h, by simp [splitSign, h]⟩
    · exact .inl (by simp [splitSign, h])

lemma splitExponent_spelled (s : List Char) : Exponent (splitExponent s).1 := by
  cases s with
  | nil => exact .none
  | cons c r =>
    simp only [splitExponent]
    split
    · next h =>
      simp only [Bool.and_eq_true, Bool.or_eq_true, decide_eq_true_eq] at h
      refine .some h.1 ?_ ⟨?_, fun _ hc => List.mem_takeWhile_imp hc⟩
      · obtain h | ⟨x, hx, h⟩ := splitSign_spelled (fun x => x = '+' || x = '-') r
        · simp [h]
        · simp only [Bool.or_eq_true, decide_eq_true_eq] at hx
          obtain rfl | rfl := hx <;> simp [h]
      · intro hnil
        cases hd : (splitSign (fun x => x = '+' || x = '-') r).2 with
        | nil => simp [hd] at h
        | cons d ds =>
          have hdigit : d.isDigit = true := by simpa [hd] using h.2
          rw [hd, List.takeWhile_cons_of_pos hdigit] at hnil
          cases hnil
    · exact .none

lemma spells_unsigned? {sign : List Char} (hs : sign ∈ [[], ['-']]) (h : unsigned? s = some l) :
    Spells l.terminal? (sign ++ l.text) := by
  have hnosuffix : ∀ {digits : List Char}, Digits digits → Spells (some .integer) (sign ++ digits) := by
    intro digits hd
    have h := Spells.integer hs hd (List.mem_cons_self (a := []))
    rwa [List.append_nil] at h
  simp only [unsigned?] at h
  split at h
  · cases h
  next hne =>
  have hd := digits_takeWhile hne
  split at h
  · cases h
    exact hnosuffix hd
  split at h
  · next c r _ hc =>
    cases h
    subst hc
    have hf : ∀ c ∈ r.takeWhile Char.isDigit, c.isDigit = true := fun _ hc => List.mem_takeWhile_imp hc
    simpa using Spells.float hs hd hf (splitExponent_spelled (r.dropWhile Char.isDigit))
  split at h
  · next c r _ _ hc =>
    cases h
    refine .integer hs hd ?_
    simp only [Bool.or_eq_true, decide_eq_true_eq] at hc
    obtain rfl | rfl := hc <;> simp
  · cases h
    exact hnosuffix hd

lemma spells_number? (h : number? s = some l) : Spells l.terminal? l.text := by
  simp only [number?] at h
  obtain ⟨l, hl, rfl⟩ := Option.map_eq_some_iff.1 h
  refine spells_unsigned? ?_ hl
  obtain hsign | ⟨c, hc, hsign⟩ := splitSign_spelled (· = '-') s
  · simp [hsign]
  · simp [hsign, of_decide_eq_true hc]

lemma spells_next? (h : next? s = some l) : Spells l.terminal? l.text := by
  cases s with
  | nil => cases h
  | cons c r =>
    have hne := text_ne_nil h
    simp only [next?] at h
    split at h
    · cases h
      exact .blank hne (forall_text_ofRun _)
    split at h
    · next hc =>
      cases h
      simp only [word, ofRun, List.takeWhile_cons_of_pos (isNameRest_of_isNameStart hc)]
      exact .word hc fun _ hx => List.mem_takeWhile_imp hx
    split at h
    · next hc =>
      split at h
      · next hr =>
        cases h
        obtain ⟨r, rfl⟩ := List.head?_eq_some_iff.1 hr
        subst hc
        have htext : (ofRun (fun _ => none) (· ≠ '\n') ('/' :: '/' :: r)).text =
            '/' :: '/' :: r.takeWhile (· ≠ '\n') := by simp [ofRun]
        rw [htext]
        exact .comment fun _ hx => by simpa using List.mem_takeWhile_imp hx
      · cases h
    split at h
    · next hm =>
      cases h
      exact .mark hm
    · exact spells_number? h

end Found

section Reached

variable {s t rest sign digits : List Char} {k : Option Terminal}

def Reaches (found : Option Lexeme) (k : Option Terminal) (t : List Char) : Prop :=
  ∃ l, found = some l ∧ t.length ≤ l.text.length ∧ (t = l.text → k = l.terminal?)

lemma unsigned?_digits (hd : Digits digits) : Reaches (unsigned? (digits ++ rest)) (some .integer) digits := by
  have htake := takeWhile_digits hd.2 rest
  have hlen : digits.length ≤ (digits ++ rest.takeWhile Char.isDigit).length := by simp
  have hne : digits ++ rest.takeWhile Char.isDigit ≠ [] := by simp [hd.1]
  simp only [unsigned?, htake, if_neg hne]
  split
  · exact ⟨_, rfl, hlen, fun _ => rfl⟩
  split
  -- With a point it is a float, but then more than the digits is found.
  · exact ⟨_, rfl, by simp, fun h => absurd (congrArg List.length h) (by simp)⟩
  split
  · exact ⟨_, rfl, by simp, fun _ => rfl⟩
  · exact ⟨_, rfl, hlen, fun _ => rfl⟩

lemma unsigned?_suffix {x : Char} (hx : x = 'i' ∨ x = 'u') (hd : Digits digits) :
    unsigned? (digits ++ x :: rest) = some ⟨some .integer, digits ++ [x], rest⟩ := by
  have htake := takeWhile_digits hd.2 (x :: rest)
  have hdrop := dropWhile_digits hd.2 (x :: rest)
  obtain rfl | rfl := hx <;> simp [unsigned?, htake, hdrop, hd.1]

lemma splitSign_signed {p : Char → Bool} (hp : ∀ c, c.isDigit = true → p c = false)
    (hs : sign = [] ∨ ∃ c, p c = true ∧ sign = [c]) (hd : Digits digits) (rest : List Char) :
    splitSign p (sign ++ (digits ++ rest)) = (sign, digits ++ rest) := by
  obtain rfl | ⟨c, hc, rfl⟩ := hs
  · obtain ⟨d, ds, rfl⟩ := List.exists_cons_of_ne_nil hd.1
    simp [splitSign, hp d (hd.2 d List.mem_cons_self)]
  · simp [splitSign, hc]

lemma splitExponent_reaches {exponent : List Char} (he : Exponent exponent) (rest : List Char) :
    exponent.length ≤ (splitExponent ((exponent ++ rest).dropWhile Char.isDigit)).1.length := by
  cases he with
  | none => exact Nat.zero_le _
  | @some e sign digits he hs hd =>
    have hsign : sign = [] ∨ ∃ c, (decide (c = '+') || decide (c = '-')) = true ∧ sign = [c] := by
      simp only [List.mem_cons, List.not_mem_nil, or_false] at hs
      obtain rfl | rfl | rfl := hs
      · exact .inl rfl
      · exact .inr ⟨'+', by decide, rfl⟩
      · exact .inr ⟨'-', by decide, rfl⟩
    have hplain : ∀ c : Char, c.isDigit = true → (decide (c = '+') || decide (c = '-')) = false := by
      intro c hc
      rw [Bool.eq_false_iff]
      intro hs
      simp only [Bool.or_eq_true, decide_eq_true_eq] at hs
      obtain rfl | rfl := hs <;> cases hc
    have hsplit := splitSign_signed hplain hsign hd rest
    have hletter : (decide (e = 'e') || decide (e = 'E')) = true := by
      obtain rfl | rfl := he <;> decide
    have hhead : (digits ++ rest).head?.any Char.isDigit = true := by
      obtain ⟨d, ds, rfl⟩ := List.exists_cons_of_ne_nil hd.1
      exact hd.2 d List.mem_cons_self
    have htake := takeWhile_digits hd.2 rest
    have hdrop : ((e :: (sign ++ digits)) ++ rest).dropWhile Char.isDigit = e :: (sign ++ (digits ++ rest)) := by
      obtain rfl | rfl := he <;> simp
    rw [hdrop]
    simp only [splitExponent, hsplit, hletter, hhead, htake, Bool.and_self, if_true]
    simp

lemma unsigned?_float {fraction exponent : List Char} (hd : Digits digits)
    (hf : ∀ c ∈ fraction, c.isDigit = true) (he : Exponent exponent) :
    Reaches (unsigned? (digits ++ '.' :: (fraction ++ (exponent ++ rest)))) (some .float)
      (digits ++ '.' :: (fraction ++ exponent)) := by
  have htake := takeWhile_digits hd.2 ('.' :: (fraction ++ (exponent ++ rest)))
  have hdrop := dropWhile_digits hd.2 ('.' :: (fraction ++ (exponent ++ rest)))
  have htail := takeWhile_digits hf (exponent ++ rest)
  have hafter := dropWhile_digits hf (exponent ++ rest)
  have hpoint : ('.' :: (fraction ++ (exponent ++ rest))).takeWhile Char.isDigit = [] := by simp
  have hstay : ('.' :: (fraction ++ (exponent ++ rest))).dropWhile Char.isDigit =
      '.' :: (fraction ++ (exponent ++ rest)) := by simp
  have hexponent := splitExponent_reaches he rest
  rw [hpoint, List.append_nil] at htake
  rw [hstay] at hdrop
  simp only [unsigned?, htake, hdrop, if_neg hd.1, if_true, htail, hafter]
  refine ⟨_, rfl, ?_, fun _ => rfl⟩
  simp only [List.length_append, List.length_cons]
  omega

lemma number?_reaches {r : List Char} (hs : sign ∈ [[], ['-']]) (hd : Digits digits)
    (h : Reaches (unsigned? (digits ++ r)) k t) : Reaches (number? (sign ++ (digits ++ r))) k (sign ++ t) := by
  have hsign : sign = [] ∨ ∃ c, decide (c = '-') = true ∧ sign = [c] := by
    simp only [List.mem_cons, List.not_mem_nil, or_false] at hs
    obtain rfl | rfl := hs
    · exact .inl rfl
    · exact .inr ⟨'-', rfl, rfl⟩
  have hplain : ∀ c : Char, c.isDigit = true → decide (c = '-') = false := by
    intro c hc
    rw [decide_eq_false_iff_not]
    rintro rfl
    cases hc
  obtain ⟨l, hl, hlen, hk⟩ := h
  have hsplit := splitSign_signed hplain hsign hd r
  simp only [number?, hsplit, hl, Option.map_some]
  refine ⟨_, rfl, ?_, fun ht => hk (List.append_cancel_left ht)⟩
  rw [List.length_append, List.length_append]
  omega

lemma next?_signed {r : List Char} (hs : sign ∈ [[], ['-']]) (hd : Digits digits) :
    next? (sign ++ (digits ++ r)) = number? (sign ++ (digits ++ r)) := by
  obtain ⟨d, ds, rfl⟩ := List.exists_cons_of_ne_nil hd.1
  simp only [List.mem_cons, List.not_mem_nil, or_false] at hs
  obtain rfl | rfl := hs
  · exact next?_of_number (.inr (hd.2 d List.mem_cons_self))
  · exact next?_of_number (.inl rfl)

lemma next?_reaches (h : Spells k t) (rest : List Char) : Reaches (next? (t ++ rest)) k t := by
  cases h with
  | blank hne h =>
    obtain ⟨c, r, rfl⟩ := List.exists_cons_of_ne_nil hne
    have hlen := (prefix_ofRun (fun _ => none) h rest).length_le
    exact ⟨_, by rw [List.cons_append, next?, if_pos (h c List.mem_cons_self)], hlen, fun _ => rfl⟩
  | @comment s h =>
    have hrun : ∀ c ∈ '/' :: '/' :: s, decide (c ≠ '\n') = true := by simpa using h
    have hlen := (prefix_ofRun (fun _ => none) hrun rest).length_le
    exact ⟨_, rfl, hlen, fun _ => rfl⟩
  | @word c s hc hs =>
    have hrun : ∀ x ∈ c :: s, isNameRest x = true :=
      List.forall_mem_cons.2 ⟨isNameRest_of_isNameStart hc, hs⟩
    have hlen := (prefix_ofRun (fun t => some (.ofWord (String.ofList t))) hrun rest).length_le
    refine ⟨word (c :: s ++ rest), ?_, hlen, fun ht => ?_⟩
    · rw [List.cons_append, next?, if_neg (Bool.eq_false_iff.1 (isSpace_of_isNameStart hc)), if_pos hc]
    · exact congrArg (fun t => some (Terminal.ofWord (String.ofList t))) ht
  | @mark c k hk =>
    obtain ⟨hs, hn, hc⟩ := head_of_mark hk
    exact ⟨⟨some k, [c], rest⟩, by simp [next?, hs, hn, hc, hk], Nat.le_refl _, fun _ => rfl⟩
  | @integer sign digits suffix hs hd hx =>
    rw [List.append_assoc, List.append_assoc, next?_signed hs hd]
    refine number?_reaches hs hd ?_
    simp only [List.mem_cons, List.not_mem_nil, or_false] at hx
    obtain rfl | rfl | rfl := hx
    · rw [List.append_nil]
      exact unsigned?_digits hd
    · exact ⟨_, unsigned?_suffix (.inl rfl) hd, Nat.le_refl _, fun _ => rfl⟩
    · exact ⟨_, unsigned?_suffix (.inr rfl) hd, Nat.le_refl _, fun _ => rfl⟩
  | @float sign digits fraction exponent hs hd hf he =>
    rw [List.append_assoc, List.append_assoc, next?_signed hs hd]
    refine number?_reaches hs hd ?_
    rw [List.cons_append, List.append_assoc]
    exact unsigned?_float hd hf he

end Reached

section Longest

variable {s t rest : List Char} {k : Option Terminal}

lemma next?_longest {l : Lexeme} (h : next? s = some l) : Longest s l.terminal? l.text l.rest := by
  refine ⟨text_append_rest h, spells_next? h, fun k' t' hs ht => ?_⟩
  obtain ⟨r, rfl⟩ := ht
  obtain ⟨l', hl', hlen, -⟩ := next?_reaches hs r
  rwa [Option.some.inj (h.symm.trans hl')]

lemma next?_eq_some_iff : next? s = some ⟨k, t, rest⟩ ↔ Longest s k t rest := by
  refine ⟨next?_longest, fun h => ?_⟩
  obtain ⟨l, hl, hlen, hk⟩ := next?_reaches h.spelled rest
  rw [h.split] at hl
  have happ := text_append_rest hl
  have hle := h.longest _ _ (spells_next? hl) ⟨_, happ⟩
  obtain ⟨ht, hr⟩ := List.append_inj (h.split.trans happ.symm) (Nat.le_antisymm hlen hle)
  rw [hl, hk ht, ht, hr]

lemma next?_eq_none_iff : next? s = none ↔ Stuck s := by
  constructor
  · rintro h k t hs ⟨r, rfl⟩
    obtain ⟨l, hl, -⟩ := next?_reaches hs r
    rw [h] at hl
    cases hl
  · intro h
    cases hl : next? s with
    | none => rfl
    | some l => exact absurd ⟨_, text_append_rest hl⟩ (h _ _ (spells_next? hl))

end Longest

end Lexeme

section Tokens

variable {p q : Position} {s rest : List Char} {ts : List Token}

lemma tokens_found {l : Lexeme} (h : Lexeme.next? s = some l) : tokens p s =
    match l.terminal? with
    | some k => (⟨k, String.ofList l.text, ⟨p, p.after l.text⟩⟩ :: (tokens (p.after l.text) l.rest).1,
        (tokens (p.after l.text) l.rest).2)
    | none => tokens (p.after l.text) l.rest := by
  rw [tokens]
  split
  · next hn =>
    rw [h] at hn
    cases hn
  · next l' hn =>
    obtain rfl := Option.some.inj (h.symm.trans hn)
    rfl

lemma tokens_token {t : List Char} {k : Terminal} (h : Longest s (some k) t rest) :
    tokens p s = (⟨k, String.ofList t, ⟨p, p.after t⟩⟩ :: (tokens (p.after t) rest).1, (tokens (p.after t) rest).2) :=
  tokens_found (Lexeme.next?_eq_some_iff.2 h)

lemma tokens_skip {t : List Char} (h : Longest s none t rest) : tokens p s = tokens (p.after t) rest :=
  tokens_found (Lexeme.next?_eq_some_iff.2 h)

lemma tokens_nil : tokens p [] = ([], .finished) := by
  rw [tokens]
  rfl

lemma tokens_stuck {c : Char} (h : Stuck (c :: s)) : tokens p (c :: s) = ([], .stray c p) := by
  have hl := Lexeme.next?_eq_none_iff.2 h
  rw [tokens]
  split
  · rfl
  · next l hn =>
    rw [hl] at hn
    cases hn

lemma Splits.tokens (h : Splits p s ts rest q) :
    tokens p s = (ts ++ (tokens q rest).1, (tokens q rest).2) := by
  induction h with
  | here => rfl
  | token h _ ih => rw [tokens_token h, ih, List.cons_append]
  | skip h _ ih => rw [tokens_skip h, ih]

lemma Splits.before {us vs : List Token} (h : Splits p s (us ++ vs) rest q) : ∃ rest' q', Splits p s us rest' q' := by
  generalize hts : us ++ vs = ts at h
  induction h generalizing us with
  | here =>
    obtain ⟨rfl, rfl⟩ := List.append_eq_nil_iff.1 hts
    exact ⟨_, _, .here⟩
  | token h _ ih =>
    cases us with
    | nil => exact ⟨_, _, .here⟩
    | cons u us =>
      obtain ⟨rfl, htail⟩ := List.cons.inj hts
      obtain ⟨rest', q', hr⟩ := ih htail
      exact ⟨rest', q', .token h hr⟩
  | skip h _ ih =>
    obtain ⟨rest', q', hr⟩ := ih hts
    exact ⟨rest', q', .skip h hr⟩

lemma splits_tokens (p : Position) (s : List Char) : ∃ rest q, Splits p s (tokens p s).1 rest q ∧
    (rest = [] ∧ (tokens p s).2 = .finished ∨
      ∃ c r, rest = c :: r ∧ Stuck rest ∧ (tokens p s).2 = .stray c q) := by
  induction hn : s.length using Nat.strong_induction_on generalizing p s with
  | _ n ih =>
    cases hl : Lexeme.next? s with
    | none =>
      have hstuck := Lexeme.next?_eq_none_iff.1 hl
      cases s with
      | nil => exact ⟨[], p, by rw [tokens_nil]; exact .here, .inl ⟨rfl, by rw [tokens_nil]⟩⟩
      | cons c r =>
        rw [tokens_stuck hstuck]
        exact ⟨c :: r, p, .here, .inr ⟨c, r, rfl, hstuck, rfl⟩⟩
    | some l =>
      obtain ⟨k, t, rest⟩ := l
      have h := Lexeme.next?_eq_some_iff.1 hl
      obtain ⟨rest', q, hr, hend⟩ := ih rest.length (hn ▸ Lexeme.rest_length_lt hl) (p.after t) rest rfl
      cases k with
      | none =>
        rw [tokens_skip h]
        exact ⟨rest', q, .skip h hr, hend⟩
      | some k =>
        rw [tokens_token h]
        exact ⟨rest', q, .token h hr, hend⟩

lemma tokens_finished_iff : tokens p s = (ts, .finished) ↔ ∃ q, Splits p s ts [] q := by
  constructor
  · intro h
    obtain ⟨rest, q, hs, ⟨rfl, -⟩ | ⟨c, r, -, -, he⟩⟩ := splits_tokens p s
    · rw [h] at hs
      exact ⟨q, hs⟩
    · rw [h] at he
      cases he
  · rintro ⟨q, h⟩
    rw [h.tokens, tokens_nil, List.append_nil]

end Tokens

end ShaderLayout.Description
