import ShaderLayout.Description.Token

/-!
Splitting a description into tokens. Blanks and comments are skipped. A character that starts
nothing ends the tokens before it; the parser decides whether it ever gets there.
-/

namespace ShaderLayout.Description

structure Lexeme where
  terminal? : Option Terminal
  text : List Char
  rest : List Char

namespace Lexeme

def isSpace (c : Char) : Bool := c = ' ' || c = '\t' || c = '\x0c' || c = '\r' || c = '\n'

def isNameStart (c : Char) : Bool := c.isAlpha || c = '_'

def isNameRest (c : Char) : Bool := c.isAlphanum || c = '_'

def splitSign (isSign : Char → Bool) : List Char → List Char × List Char
  | [] => ([], [])
  | c :: r => if isSign c then ([c], r) else ([], c :: r)

def splitExponent : List Char → List Char × List Char
  | [] => ([], [])
  | c :: r =>
    let (sign, digits) := splitSign (fun x => x = '+' || x = '-') r
    if (c = 'e' || c = 'E') && (digits.head?.any Char.isDigit) then
      (c :: sign ++ digits.takeWhile Char.isDigit, digits.dropWhile Char.isDigit)
    else
      ([], c :: r)

def unsigned? (s : List Char) : Option Lexeme :=
  let digits := s.takeWhile Char.isDigit
  if digits = [] then none
  else match s.dropWhile Char.isDigit with
    | [] => some ⟨some .integer, digits, []⟩
    | c :: r =>
      if c = '.' then
        let (exponent, rest) := splitExponent (r.dropWhile Char.isDigit)
        some ⟨some .float, digits ++ c :: r.takeWhile Char.isDigit ++ exponent, rest⟩
      else if c = 'i' || c = 'u' then some ⟨some .integer, digits ++ [c], r⟩
      else some ⟨some .integer, digits, c :: r⟩

def number? (s : List Char) : Option Lexeme :=
  let (sign, r) := splitSign (· = '-') s
  (unsigned? r).map fun l => { l with text := sign ++ l.text }

def ofRun (terminal? : List Char → Option Terminal) (p : Char → Bool) (s : List Char) : Lexeme :=
  ⟨terminal? (s.takeWhile p), s.takeWhile p, s.dropWhile p⟩

def word (s : List Char) : Lexeme := ofRun (fun t => some (.ofWord (String.ofList t))) isNameRest s

def next? : List Char → Option Lexeme
  | [] => none
  | c :: r =>
    if isSpace c then some (ofRun (fun _ => none) isSpace (c :: r))
    else if isNameStart c then some (word (c :: r))
    else if c = '/' then
      if r.head? = some '/' then some (ofRun (fun _ => none) (· ≠ '\n') (c :: r)) else none
    else match Terminal.ofMark? c with
      | some t => some ⟨some t, [c], r⟩
      | none => number? (c :: r)

theorem splitSign_append (p : Char → Bool) (s : List Char) : (splitSign p s).1 ++ (splitSign p s).2 = s := by
  cases s with
  | nil => rfl
  | cons c r => by_cases h : p c <;> simp [splitSign, h]

theorem splitExponent_append (s : List Char) : (splitExponent s).1 ++ (splitExponent s).2 = s := by
  cases s with
  | nil => rfl
  | cons c r =>
    simp only [splitExponent]
    split
    · simp [splitSign_append]
    · rfl

theorem text_append_rest_ofRun (f : List Char → Option Terminal) (p : Char → Bool) (s : List Char) :
    (ofRun f p s).text ++ (ofRun f p s).rest = s := by
  simp [ofRun]

theorem text_append_rest_unsigned? {s : List Char} {l : Lexeme} (h : unsigned? s = some l) :
    l.text ++ l.rest = s := by
  have hd := List.takeWhile_append_dropWhile (p := Char.isDigit) (l := s)
  simp only [unsigned?] at h
  split at h
  · cases h
  split at h
  · next hr =>
    cases h
    rw [hr] at hd
    exact hd
  · next c r hr =>
    rw [hr] at hd
    split at h
    · cases h
      simp only [List.append_assoc, List.cons_append, splitExponent_append, List.takeWhile_append_dropWhile]
      exact hd
    · split at h <;> cases h
      · simpa using hd
      · exact hd

theorem text_ne_nil_unsigned? {s : List Char} {l : Lexeme} (h : unsigned? s = some l) : l.text ≠ [] := by
  simp only [unsigned?] at h
  split at h
  · cases h
  · next hd =>
    split at h
    · cases h
      exact hd
    · split at h
      · cases h
        simp
      · split at h <;> cases h
        · simp
        · exact hd

theorem text_append_rest_number? {s : List Char} {l : Lexeme} (h : number? s = some l) :
    l.text ++ l.rest = s := by
  simp only [number?] at h
  obtain ⟨l, hl, rfl⟩ := Option.map_eq_some_iff.1 h
  rw [List.append_assoc, text_append_rest_unsigned? hl, splitSign_append]

theorem text_ne_nil_number? {s : List Char} {l : Lexeme} (h : number? s = some l) : l.text ≠ [] := by
  obtain ⟨l, hl, rfl⟩ := Option.map_eq_some_iff.1 h
  simp [text_ne_nil_unsigned? hl]

theorem text_append_rest {s : List Char} {l : Lexeme} (h : next? s = some l) : l.text ++ l.rest = s := by
  cases s with
  | nil => cases h
  | cons c r =>
    simp only [next?] at h
    split at h
    · cases h
      exact text_append_rest_ofRun ..
    split at h
    · cases h
      exact text_append_rest_ofRun ..
    split at h
    · split at h
      · cases h
        exact text_append_rest_ofRun ..
      · cases h
    split at h
    · cases h
      rfl
    · exact text_append_rest_number? h

theorem text_ne_nil {s : List Char} {l : Lexeme} (h : next? s = some l) : l.text ≠ [] := by
  cases s with
  | nil => cases h
  | cons c r =>
    simp only [next?] at h
    split at h
    · next hc =>
      cases h
      simp [ofRun, hc]
    split at h
    · next hc =>
      cases h
      have : isNameRest c = true := by
        simp only [isNameStart, Bool.or_eq_true] at hc
        rcases hc with hc | hc <;> simp [isNameRest, Char.isAlphanum, hc]
      simp [word, ofRun, this]
    split at h
    · next hc =>
      split at h
      · cases h
        subst hc
        simp [ofRun]
      · cases h
    split at h
    · cases h
      simp
    · exact text_ne_nil_number? h

theorem rest_length_lt {s : List Char} {l : Lexeme} (h : next? s = some l) : l.rest.length < s.length := by
  have h1 := congrArg List.length (text_append_rest h)
  have h2 := List.length_pos_iff.2 (text_ne_nil h)
  simp only [List.length_append] at h1
  omega

end Lexeme

inductive Ending
  | finished
  | stray (c : Char) (place : Position)
  deriving DecidableEq, Repr

def tokens (p : Position) (s : List Char) : List Token × Ending :=
  match _h : Lexeme.next? s with
  | none =>
    match s with
    | [] => ([], .finished)
    | c :: _ => ([], .stray c p)
  | some l =>
    let q := p.after l.text
    let (ts, e) := tokens q l.rest
    match l.terminal? with
    | some t => (⟨t, String.ofList l.text, ⟨p, q⟩⟩ :: ts, e)
    | none => (ts, e)
termination_by s.length
decreasing_by exact Lexeme.rest_length_lt _h

end ShaderLayout.Description
