import ShaderLayout.Proofs.Description.Lexical

namespace ShaderLayout.Description

inductive Filler : List Char → Prop
  | nil : Filler []
  | blank {c : Char} {s : List Char} (hc : Lexeme.isSpace c = true) (h : Filler s) : Filler (c :: s)
  | comment {t s : List Char} (ht : ∀ c ∈ t, c ≠ '\n') (h : Filler s) : Filler ('/' :: '/' :: (t ++ '\n' :: s))

def Separator (s : List Char) : Prop := Filler s ∧ s ≠ []

abbrev Word := Terminal × String

def Token.word (t : Token) : Word := (t.terminal, t.text)

/-- The texts of some words, with separators before, between and after them. -/
inductive Written : List Word → List Char → Prop
  | nil {gap : List Char} (hg : Separator gap) : Written [] gap
  | cons {gap s : List Char} {k : Terminal} {text : String} {ws : List Word} (hg : Separator gap)
      (ht : Spells (some k) text.toList) (h : Written ws s) : Written ((k, text) :: ws) (gap ++ (text.toList ++ s))

section Words

def Solid (c : Char) : Prop := Lexeme.isSpace c = false ∧ c ≠ '/'

instance : DecidablePred Solid := fun c => inferInstanceAs (Decidable (Lexeme.isSpace c = false ∧ c ≠ '/'))

lemma solid_of_isNameRest {c : Char} (h : Lexeme.isNameRest c = true) : Solid c := by
  constructor
  · rw [Bool.eq_false_iff]
    intro hs
    simp only [Lexeme.isSpace, Bool.or_eq_true, decide_eq_true_eq] at hs
    obtain (((rfl | rfl) | rfl) | rfl) | rfl := hs <;> exact absurd h (by decide)
  · rintro rfl
    exact absurd h (by decide)

lemma solid_of_isDigit {c : Char} (h : c.isDigit = true) : Solid c :=
  have hc := Lexeme.head_of_number (.inr h)
  ⟨hc.1, hc.2.2.1⟩

lemma Digits.solid {s : List Char} (h : Digits s) : ∀ c ∈ s, Solid c := fun c hc => solid_of_isDigit (h.2 c hc)

lemma Exponent.solid {s : List Char} (h : Exponent s) : ∀ c ∈ s, Solid c := by
  cases h with
  | none => simp
  | @some e sign digits he hs hd =>
    have hsign : ∀ s ∈ [[], ['+'], ['-']], ∀ c ∈ s, Solid c := by simp [Solid, Lexeme.isSpace]
    refine List.forall_mem_cons.2 ⟨?_, List.forall_mem_append.2 ⟨hsign sign hs, hd.solid⟩⟩
    obtain rfl | rfl := he <;> decide

lemma Spells.solid {k : Terminal} {t : List Char} (h : Spells (some k) t) : ∀ c ∈ t, Solid c := by
  have hsign : ∀ s ∈ [[], ['-']], ∀ c ∈ s, Solid c := by simp [Solid, Lexeme.isSpace]
  have hsuffix : ∀ s ∈ [[], ['i'], ['u']], ∀ c ∈ s, Solid c := by simp [Solid, Lexeme.isSpace]
  cases h with
  | word hc hs =>
    refine List.forall_mem_cons.2 ⟨?_, fun c hc => solid_of_isNameRest (hs c hc)⟩
    exact solid_of_isNameRest (Lexeme.isNameRest_of_isNameStart hc)
  | mark h =>
    obtain ⟨hs, -, hc⟩ := Lexeme.head_of_mark h
    exact List.forall_mem_singleton.2 ⟨hs, hc⟩
  | integer hs hd hx =>
    simp only [List.forall_mem_append]
    exact ⟨hsign _ hs, hd.solid, hsuffix _ hx⟩
  | float hs hd hf he =>
    simp only [List.forall_mem_append, List.forall_mem_cons]
    exact ⟨hsign _ hs, hd.solid, by decide, fun c hc => solid_of_isDigit (hf c hc), he.solid⟩

lemma Spells.not_solid {c : Char} {t : List Char} (h : Spells none (c :: t)) : ¬ Solid c := by
  cases h with
  | blank _ h => exact fun hc => Bool.eq_false_iff.1 hc.1 (h c List.mem_cons_self)
  | comment => exact fun hc => hc.2 rfl

lemma Separator.exists_cons {s : List Char} (h : Separator s) : ∃ c r, s = c :: r ∧ ¬ Solid c := by
  obtain ⟨h, hne⟩ := h
  cases h with
  | nil => exact absurd rfl hne
  | blank hc _ => exact ⟨_, _, rfl, fun h => by simp [h.1] at hc⟩
  | comment _ _ => exact ⟨_, _, rfl, fun h => h.2 rfl⟩

lemma Separator.longest {k : Terminal} {t gap : List Char} (hg : Separator gap) (ht : Spells (some k) t)
    (s : List Char) : Longest (t ++ (gap ++ s)) (some k) t (gap ++ s) := by
  refine ⟨rfl, ht, fun k' t' hs' hp => ?_⟩
  obtain ⟨c, r, rfl, hc⟩ := hg.exists_cons
  by_contra hlt
  -- A longer text has the first character of the separator in it, and starts like the token.
  have hlong : t ++ [c] <+: t' := by
    refine List.prefix_of_prefix_length_le ⟨r ++ s, by simp⟩ hp ?_
    rw [List.length_append, List.length_singleton]
    omega
  cases k' with
  | some k' => exact hc (hs'.solid c (hlong.subset (by simp)))
  | none =>
    obtain ⟨d, u, rfl⟩ := List.exists_cons_of_ne_nil ht.ne_nil
    obtain ⟨v, rfl⟩ := hlong
    exact hs'.not_solid (ht.solid d List.mem_cons_self)

end Words

section Found

variable {p : Position} {s : List Char}

lemma tokens_blank {c : Char} (hc : Lexeme.isSpace c = true) : tokens p (c :: s) = tokens (p.step c) s := by
  -- Blanks are found in runs, and a blank with a run after it is a run.
  have hrun : ∀ {c : Char} {s : List Char} {p : Position}, Lexeme.isSpace c = true → tokens p (c :: s) =
      tokens ((p.step c).after (s.takeWhile Lexeme.isSpace)) (s.dropWhile Lexeme.isSpace) := by
    intro c s p hc
    have hnext : Lexeme.next? (c :: s) = some (.ofRun (fun _ => none) Lexeme.isSpace (c :: s)) := by
      rw [Lexeme.next?, if_pos hc]
    rw [tokens_found hnext]
    simp only [Lexeme.ofRun, List.takeWhile_cons_of_pos hc, List.dropWhile_cons_of_pos hc]
    rfl
  rw [hrun hc]
  cases s with
  | nil => rfl
  | cons d s =>
    by_cases hd : Lexeme.isSpace d = true
    · rw [hrun hd, List.takeWhile_cons_of_pos hd, List.dropWhile_cons_of_pos hd]
      rfl
    · rw [List.takeWhile_cons_of_neg hd, List.dropWhile_cons_of_neg hd]
      rfl

lemma tokens_comment {t : List Char} (ht : ∀ c ∈ t, c ≠ '\n') :
    tokens p ('/' :: '/' :: (t ++ '\n' :: s)) = tokens (p.after ('/' :: '/' :: (t ++ ['\n']))) s := by
  let line := '/' :: '/' :: t
  have hnext : Lexeme.next? (line ++ '\n' :: s) =
      some (.ofRun (fun _ => none) (fun c => decide (c ≠ '\n')) (line ++ '\n' :: s)) := rfl
  have hrun : ∀ c ∈ line, decide (c ≠ '\n') = true := by simpa [line] using ht
  have htake : (line ++ '\n' :: s).takeWhile (fun c => decide (c ≠ '\n')) = line := by
    rw [List.takeWhile_append_of_pos hrun, List.takeWhile_cons_of_neg (by simp), List.append_nil]
  have hdrop : (line ++ '\n' :: s).dropWhile (fun c => decide (c ≠ '\n')) = '\n' :: s := by
    rw [List.dropWhile_append_of_pos hrun, List.dropWhile_cons_of_neg (by simp)]
  change tokens p (line ++ '\n' :: s) = tokens (p.after (line ++ ['\n'])) s
  rw [tokens_found hnext, Position.after_append]
  simp only [Lexeme.ofRun, htake, hdrop]
  exact tokens_blank (by decide)

lemma Filler.tokens {gap : List Char} (h : Filler gap) (p : Position) (s : List Char) :
    tokens p (gap ++ s) = tokens (p.after gap) s := by
  induction h generalizing p with
  | nil => rfl
  | blank hc _ ih =>
    rw [List.cons_append, tokens_blank hc]
    exact ih _
  | @comment t rest ht _ ih =>
    have hline : '/' :: '/' :: (t ++ '\n' :: rest) = '/' :: '/' :: (t ++ ['\n']) ++ rest := by simp
    rw [hline, Position.after_append, ← ih, ← tokens_comment ht]
    simp

lemma Written.longest {ws : List Word} (h : Written ws s) {k : Terminal} {t : List Char} (ht : Spells (some k) t) :
    Longest (t ++ s) (some k) t s := by
  cases h with
  | nil hg => simpa using hg.longest ht []
  | cons hg _ _ => exact hg.longest ht _

lemma Written.tokens {ws : List Word} (h : Written ws s) (p : Position) :
    ∃ ts, tokens p s = (ts, .finished) ∧ ts.map Token.word = ws := by
  induction h generalizing p with
  | nil hg =>
    have hskip := hg.1.tokens p []
    rw [List.append_nil, tokens_nil] at hskip
    exact ⟨[], hskip, rfl⟩
  | @cons gap s k text ws hg ht h ih =>
    obtain ⟨ts, hts, hwords⟩ := ih ((p.after gap).after text.toList)
    have hfound := tokens_token (p := p.after gap) (h.longest ht)
    rw [hts] at hfound
    refine ⟨_, (hg.1.tokens p _).trans hfound, ?_⟩
    rw [List.map_cons, hwords, Token.word, String.ofList_toList]

end Found

end ShaderLayout.Description
