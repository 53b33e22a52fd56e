import Mathlib
import ShaderLayout.Description.Outline

/-!
The grammar of descriptions, and the trees that it derives. A derivation takes the parts of a production from
the left, so that what is left to derive is again a list of parts.
-/

namespace ShaderLayout.Description

namespace Grammar

inductive Symbol
  | start
  | item
  | constDef
  | typeDef
  | literal
  | attribute
  | typeExpr
  | typeBody
  | arrayLen
  | member
  deriving DecidableEq

inductive Form
  | terminal (t : Terminal)
  | symbol (s : Symbol)
  | optional (parts : List Form)
  | many (parts : List Form)

structure Production where
  label : Option String
  parts : List Form

def memberList : List Form := [.symbol .member, .many [.terminal .comma, .symbol .member]]

def rules : Symbol → List Production
  | .start => [⟨some "start", [.many [.symbol .item]]⟩]
  | .item => [⟨none, [.symbol .constDef]⟩, ⟨none, [.symbol .typeDef]⟩]
  | .constDef =>
    [⟨some "const_def", [.terminal .const, .terminal .name, .terminal .equal, .symbol .literal,
      .terminal .semicolon]⟩]
  | .typeDef =>
    [⟨some "type_def", [.terminal .type, .terminal .name, .terminal .equal, .symbol .typeExpr, .terminal .semicolon]⟩]
  | .literal =>
    [⟨some "int_lit", [.terminal .integer]⟩, ⟨some "float_lit", [.terminal .float]⟩,
      ⟨some "true_lit", [.terminal .trueWord]⟩, ⟨some "false_lit", [.terminal .falseWord]⟩]
  | .attribute =>
    [⟨some "attribute", [.terminal .atSign, .terminal .name, .terminal .leftParen, .terminal .integer,
      .terminal .rightParen]⟩]
  | .typeExpr => [⟨some "type_expr", [.many [.symbol .attribute], .symbol .typeBody]⟩]
  | .typeBody =>
    [⟨some "named_t", [.terminal .name]⟩,
      ⟨some "vector_t", [.terminal .vec, .terminal .lessThan, .terminal .integer, .terminal .comma, .terminal .name,
        .terminal .moreThan]⟩,
      ⟨some "matrix_t", [.terminal .mat, .terminal .lessThan, .terminal .integer, .terminal .comma,
        .terminal .integer, .terminal .comma, .terminal .name, .terminal .moreThan]⟩,
      ⟨some "pointer_t", [.terminal .ptr, .terminal .lessThan, .symbol .typeExpr, .terminal .moreThan]⟩,
      ⟨some "value_pointer_t", [.terminal .valuePtr, .terminal .lessThan, .symbol .typeExpr, .terminal .moreThan]⟩,
      ⟨some "array_t", [.terminal .array, .terminal .lessThan, .symbol .typeExpr,
        .optional [.terminal .comma, .symbol .arrayLen], .terminal .moreThan]⟩,
      ⟨some "struct_t", [.terminal .struct, .terminal .leftBrace,
        .optional (memberList ++ [.optional [.terminal .comma]]), .terminal .rightBrace]⟩,
      ⟨some "image_t", [.terminal .image, .terminal .lessThan, .terminal .name,
        .optional [.terminal .comma, .terminal .name], .terminal .moreThan]⟩,
      ⟨some "sampler_t", [.terminal .sampler]⟩,
      ⟨some "sampler_comparison_t", [.terminal .samplerComparison]⟩]
  | .arrayLen => [⟨some "array_len", [.terminal .integer]⟩, ⟨some "array_len", [.terminal .name]⟩]
  | .member => [⟨some "member", [.many [.symbol .attribute], .terminal .name, .terminal .colon, .symbol .typeExpr]⟩]

def spanOf (ts : List Token) : Option Region :=
  match ts.head?, ts.getLast? with
  | some a, some b => some ⟨a.region.start, b.region.stop⟩
  | _, _ => none

def Production.tree (p : Production) (ts : List Token) (children : List Outline) : List Outline :=
  match p.label with
  | some label => [.rule label (spanOf ts) children]
  | none => children

def kept : Terminal → Bool
  | .name | .integer | .float => true
  | _ => false

def leaf (t : Token) : List Outline := if kept t.terminal then [.leaf t] else []

inductive Derives : List Form → List Token → List Outline → Prop
  | nil : Derives [] [] []
  | terminal {t : Token} {ps : List Form} {ts : List Token} {os : List Outline} (hr : Derives ps ts os) :
      Derives (.terminal t.terminal :: ps) (t :: ts) (leaf t ++ os)
  | symbol {s : Symbol} {p : Production} {ps : List Form} {ts us : List Token} {os vs : List Outline}
      (hp : p ∈ rules s) (hs : Derives p.parts ts os) (hr : Derives ps us vs) :
      Derives (.symbol s :: ps) (ts ++ us) (p.tree ts os ++ vs)
  | absent {parts ps : List Form} {ts : List Token} {os : List Outline} (hr : Derives ps ts os) :
      Derives (.optional parts :: ps) ts os
  | present {parts ps : List Form} {ts us : List Token} {os vs : List Outline} (hs : Derives parts ts os)
      (hr : Derives ps us vs) : Derives (.optional parts :: ps) (ts ++ us) (os ++ vs)
  | done {parts ps : List Form} {ts : List Token} {os : List Outline} (hr : Derives ps ts os) :
      Derives (.many parts :: ps) ts os
  | again {parts ps : List Form} {ts us : List Token} {os vs : List Outline} (hs : Derives parts ts os)
      (hr : Derives (.many parts :: ps) us vs) : Derives (.many parts :: ps) (ts ++ us) (os ++ vs)

def Sentence (ts : List Token) (o : Outline) : Prop := Derives [.symbol .start] ts [o]

def Viable (ts : List Token) : Prop := ∃ us o, Sentence (ts ++ us) o

/-- The terminals that may follow some tokens; the end of the input may where they are a sentence. -/
def Legal (ts : List Token) (k : Terminal) : Prop :=
  (k = .endOfInput ∧ ∃ o, Sentence ts o) ∨ ∃ t, t.terminal = k ∧ Viable (ts ++ [t])

section Inversion

variable {ps qs : List Form} {ts us : List Token} {os vs : List Outline}

@[simp] lemma derives_nil : Derives [] ts os ↔ ts = [] ∧ os = [] := by
  constructor
  · rintro ⟨⟩
    exact ⟨rfl, rfl⟩
  · rintro ⟨rfl, rfl⟩
    exact .nil

@[simp] lemma derives_terminal {k : Terminal} : Derives (.terminal k :: ps) ts os ↔
    ∃ t us vs, ts = t :: us ∧ os = leaf t ++ vs ∧ t.terminal = k ∧ Derives ps us vs := by
  constructor
  · rintro ⟨⟩
    exact ⟨_, _, _, rfl, rfl, rfl, ‹_›⟩
  · rintro ⟨t, us, vs, rfl, rfl, rfl, h⟩
    exact .terminal h

lemma Derives.append (h : Derives ps ts os) (h' : Derives qs us vs) : Derives (ps ++ qs) (ts ++ us) (os ++ vs) := by
  induction h with
  | nil => exact h'
  | terminal _ ih =>
    rw [List.append_assoc]
    exact .terminal ih
  | symbol hp hs _ _ ih =>
    rw [List.append_assoc, List.append_assoc]
    exact .symbol hp hs ih
  | absent _ ih => exact .absent ih
  | present hs _ _ ih =>
    rw [List.append_assoc, List.append_assoc]
    exact .present hs ih
  | done _ ih => exact .done ih
  | again hs _ _ ih =>
    rw [List.append_assoc, List.append_assoc]
    exact .again hs ih

lemma derives_symbol {s : Symbol} : Derives [.symbol s] ts os ↔
    ∃ p ∈ rules s, ∃ vs, Derives p.parts ts vs ∧ os = p.tree ts vs := by
  constructor
  · intro h
    cases h with
    | symbol hp hs hr =>
      obtain ⟨rfl, rfl⟩ := derives_nil.1 hr
      exact ⟨_, hp, _, by simpa using hs, by simp⟩
  · rintro ⟨p, hp, vs, h, rfl⟩
    simpa using Derives.symbol hp h .nil

lemma derives_symbol_cons {s : Symbol} : Derives (.symbol s :: ps) ts os ↔
    ∃ us us' vs vs', ts = us ++ us' ∧ os = vs ++ vs' ∧ Derives [.symbol s] us vs ∧ Derives ps us' vs' := by
  constructor
  · intro h
    cases h with
    | symbol hp hs hr => exact ⟨_, _, _, _, rfl, rfl, derives_symbol.2 ⟨_, hp, _, hs, rfl⟩, hr⟩
  · rintro ⟨us, us', vs, vs', rfl, rfl, h, h'⟩
    exact h.append h'

lemma derives_optional {parts : List Form} : Derives (.optional parts :: ps) ts os ↔
    Derives ps ts os ∨ ∃ us us' vs vs', ts = us ++ us' ∧ os = vs ++ vs' ∧ Derives parts us vs ∧
      Derives ps us' vs' := by
  constructor
  · intro h
    cases h with
    | absent hr => exact .inl hr
    | present hs hr => exact .inr ⟨_, _, _, _, rfl, rfl, hs, hr⟩
  · rintro (h | ⟨us, us', vs, vs', rfl, rfl, h, h'⟩)
    · exact .absent h
    · exact .present h h'

lemma derives_many {parts : List Form} : Derives (.many parts :: ps) ts os ↔
    Derives ps ts os ∨ ∃ us us' vs vs', ts = us ++ us' ∧ os = vs ++ vs' ∧ Derives parts us vs ∧
      Derives (.many parts :: ps) us' vs' := by
  constructor
  · intro h
    cases h with
    | done hr => exact .inl hr
    | again hs hr => exact .inr ⟨_, _, _, _, rfl, rfl, hs, hr⟩
  · rintro (h | ⟨us, us', vs, vs', rfl, rfl, h, h'⟩)
    · exact .done h
    · exact .again h h'

lemma Derives.kept {t : Token} {k : Terminal} (ht : t.terminal = k) (hk : kept k = true) (h : Derives ps ts os) :
    Derives (.terminal k :: ps) (t :: ts) (.leaf t :: os) := by
  subst ht
  have := Derives.terminal (t := t) h
  rwa [leaf, if_pos hk] at this

lemma Derives.dropped {t : Token} {k : Terminal} (ht : t.terminal = k) (hk : Grammar.kept k = false)
    (h : Derives ps ts os) : Derives (.terminal k :: ps) (t :: ts) os := by
  subst ht
  have := Derives.terminal (t := t) h
  rwa [leaf, hk] at this

lemma Derives.optional (h : Derives ps ts os) : Derives [.optional ps] ts os := by
  simpa using Derives.present h .nil

lemma Derives.many_concat {parts : List Form} (h : Derives [.many parts] ts os) (h' : Derives parts us vs) :
    Derives [.many parts] (ts ++ us) (os ++ vs) := by
  generalize hq : [Form.many parts] = q at h
  induction h with
  | done hr =>
    cases hq
    obtain ⟨rfl, rfl⟩ := derives_nil.1 hr
    simpa using Derives.again h' (.done .nil)
  | again hs _ _ ih =>
    cases hq
    rw [List.append_assoc, List.append_assoc]
    exact .again hs (ih rfl)
  | _ => cases hq

end Inversion

section Spans

variable {ts us : List Token} {os : List Outline} {r r' : Region}

lemma spanOf_eq_some : spanOf ts = some r ↔
    ∃ a b, ts.head? = some a ∧ ts.getLast? = some b ∧ r = ⟨a.region.start, b.region.stop⟩ := by
  rw [spanOf]
  split
  · next a b ha hb => simp [ha, hb, eq_comm]
  · next h =>
    constructor
    · rintro ⟨⟩
    · rintro ⟨a, b, ha, hb, -⟩
      exact (h a b ha hb).elim

lemma spanOf_append (h : spanOf ts = some r) (h' : spanOf us = some r') :
    spanOf (ts ++ us) = some ⟨r.start, r'.stop⟩ := by
  obtain ⟨a, b, ha, hb, rfl⟩ := spanOf_eq_some.1 h
  obtain ⟨a', b', ha', hb', rfl⟩ := spanOf_eq_some.1 h'
  exact spanOf_eq_some.2 ⟨a, b', by simp [List.head?_append, ha], by simp [List.getLast?_append, hb'], rfl⟩

def regionOf : Outline → Option Region
  | .leaf t => some t.region
  | .rule _ r _ => r

lemma Derives.one {s : Symbol} (h : Derives [.symbol s] ts os) : ∃ o, os = [o] ∧ regionOf o = spanOf ts := by
  have labelled : ∀ {s : Symbol} {os : List Outline}, s ≠ .item → Derives [.symbol s] ts os →
      ∃ o, os = [o] ∧ regionOf o = spanOf ts := by
    intro s os hs h
    obtain ⟨p, hp, vs, -, rfl⟩ := derives_symbol.1 h
    have hl : ∀ p ∈ rules s, p.label.isSome = true := by
      cases s with
      | item => exact absurd rfl hs
      | _ => simp [rules]
    obtain ⟨label, hl⟩ := Option.isSome_iff_exists.1 (hl p hp)
    exact ⟨.rule label (spanOf ts) vs, by rw [Production.tree, hl], rfl⟩
  -- Only an item has no label, and its productions are one labelled symbol each.
  by_cases hs : s = .item
  · subst hs
    obtain ⟨p, hp, vs, hd, rfl⟩ := derives_symbol.1 h
    simp only [rules, List.mem_cons, List.not_mem_nil, or_false] at hp
    obtain rfl | rfl := hp
    · exact labelled (s := .constDef) (by decide) hd
    · exact labelled (s := .typeDef) (by decide) hd
  · exact labelled hs h

lemma Derives.region {s : Symbol} {o : Outline} (h : Derives [.symbol s] ts [o]) : regionOf o = spanOf ts := by
  obtain ⟨o', ho, hr⟩ := h.one
  rwa [← (List.singleton_inj.1 ho)] at hr

lemma Derives.many_nil {s : Symbol} (h : Derives [.many [.symbol s]] ts []) : ts = [] := by
  obtain h | ⟨us, us', vs, vs', -, hos, h, -⟩ := derives_many.1 h
  · exact (derives_nil.1 h).1
  · obtain ⟨o, rfl, -⟩ := h.one
    cases hos

lemma Derives.many_cons {s : Symbol} {o : Outline} (h : Derives [.many [.symbol s]] ts (o :: os)) :
    ∃ us us', ts = us ++ us' ∧ Derives [.symbol s] us [o] ∧ Derives [.many [.symbol s]] us' os := by
  obtain hd | ⟨us, us', vs, vs', rfl, hos, hd, hd'⟩ := derives_many.1 h
  · cases (derives_nil.1 hd).2
  · obtain ⟨o', rfl, -⟩ := hd.one
    cases hos
    exact ⟨us, us', rfl, hd, hd'⟩

lemma Derives.node {s : Symbol} {label : String} {parts : List Form} (hp : ⟨some label, parts⟩ ∈ rules s)
    (h : Derives parts ts os) (hr : spanOf ts = some r) : Derives [.symbol s] ts [.rule label (some r) os] :=
  derives_symbol.2 ⟨_, hp, os, h, by rw [Production.tree, hr]⟩

end Spans

end Grammar

end ShaderLayout.Description
