import ShaderLayout.Proofs.Description.Grammar
import ShaderLayout.Proofs.Description.Places

/-!
The regions of trees. A tree is made from some of the tokens in a row, dropped ones among them, and its region goes
from the first of these to the last; so trees lie in their parents, and one after the other.
-/

namespace ShaderLayout.Description

namespace Grammar

inductive Part : Outline → Outline → Prop
  | self (o : Outline) : Part o o
  | child {o c : Outline} {label : String} {r : Option Region} {children : List Outline} (hc : c ∈ children)
      (h : Part o c) : Part o (.rule label r children)

inductive Node : List Token → Outline → Prop
  | leaf {t : Token} (hk : kept t.terminal = true) : Node [t] (.leaf t)
  | rule {s : Symbol} {p : Production} {label : String} {ts : List Token} {children : List Outline}
      (hp : p ∈ rules s) (hl : p.label = some label) (hd : Derives p.parts ts children) :
      Node ts (.rule label (spanOf ts) children)

inductive Spread : List Token → List Outline → Prop
  | nil : Spread [] []
  | dropped {t : Token} {ts : List Token} {os : List Outline} (hk : kept t.terminal = false) (h : Spread ts os) :
      Spread (t :: ts) os
  | node {us ts : List Token} {o : Outline} {os : List Outline} (ho : Node us o) (h : Spread ts os) :
      Spread (us ++ ts) (o :: os)

structure Ordered (ts : List Token) : Prop where
  nonempty : ∀ t ∈ ts, t.region.start < t.region.stop
  apart : ts.Pairwise fun a b => a.region.stop ≤ b.region.start

variable {ts us vs : List Token} {o o' : Outline} {os : List Outline} {r r' : Region}

section Trees

lemma Spread.append (h : Spread ts os) {os' : List Outline} (h' : Spread us os') : Spread (ts ++ us) (os ++ os') := by
  induction h with
  | nil => exact h'
  | dropped hk _ ih => exact .dropped hk ih
  | node ho _ ih =>
    rw [List.append_assoc]
    exact .node ho ih

lemma Derives.spread {ps : List Form} (h : Derives ps ts os) : Spread ts os := by
  induction h with
  | nil => exact .nil
  | @terminal t _ _ _ _ ih =>
    rw [leaf]
    split
    · next hk => exact .node (.leaf hk) ih
    · next hk => exact .dropped (Bool.eq_false_iff.2 hk) ih
  | @symbol s p _ _ _ _ _ hp hs _ ihs ih =>
    refine Spread.append ?_ ih
    rw [Production.tree]
    split
    · next label hl => simpa using Spread.node (.rule hp hl hs) .nil
    · exact ihs
  | absent _ ih => exact ih
  | present _ _ ihs ih => exact ihs.append ih
  | done _ ih => exact ih
  | again _ _ ihs ih => exact ihs.append ih

lemma Spread.member (h : Spread ts os) (ho : o ∈ os) : ∃ us, us <:+: ts ∧ Node us o := by
  induction h with
  | nil => cases ho
  | dropped _ _ ih =>
    obtain ⟨us, hus, hn⟩ := ih ho
    exact ⟨us, hus.trans (List.suffix_cons ..).isInfix, hn⟩
  | @node vs ts _ _ hn _ ih =>
    obtain rfl | ho := List.mem_cons.1 ho
    · exact ⟨vs, (List.prefix_append vs ts).isInfix, hn⟩
    · obtain ⟨us, hus, hn⟩ := ih ho
      exact ⟨us, hus.trans (List.suffix_append vs ts).isInfix, hn⟩

lemma Node.part (h : Node ts o) (hp : Part o' o) : ∃ us, us <:+: ts ∧ Node us o' := by
  induction hp generalizing ts with
  | self => exact ⟨ts, List.infix_rfl, h⟩
  | child hc _ ih =>
    cases h with
    | rule _ _ hd =>
      obtain ⟨us, hus, hn⟩ := hd.spread.member hc
      obtain ⟨vs, hvs, hn⟩ := ih hn
      exact ⟨vs, hvs.trans hus, hn⟩

lemma Node.region (h : Node ts o) : regionOf o = spanOf ts := by
  cases h with
  | leaf => rfl
  | rule => rfl

lemma Sentence.node (h : Sentence ts o) : Node ts o := by
  obtain ⟨p, hp, vs, hd, ho⟩ := derives_symbol.1 h
  obtain rfl := List.mem_singleton.1 hp
  cases ho
  exact .rule hp rfl hd

end Trees

section Order

lemma Ordered.of_infix (h : Ordered ts) (hu : us <:+: ts) : Ordered us :=
  ⟨fun t ht => h.nonempty t (hu.subset ht), h.apart.sublist hu.sublist⟩

lemma Ordered.append (h : Ordered (us ++ vs)) {a b : Token} (ha : a ∈ us) (hb : b ∈ vs) :
    a.region.stop ≤ b.region.start :=
  (List.pairwise_append.1 h.apart).2.2 a ha b hb

lemma Ordered.within_span (h : Ordered ts) (hr : spanOf ts = some r) {t : Token} (ht : t ∈ ts) :
    r.start ≤ t.region.start ∧ t.region.stop ≤ r.stop := by
  obtain ⟨a, b, ha, hb, rfl⟩ := spanOf_eq_some.1 hr
  obtain ⟨before, after, rfl⟩ := List.append_of_mem ht
  constructor
  · cases before with
    | nil =>
      cases ha
      exact le_rfl
    | cons c before =>
      obtain rfl : c = a := by simpa using ha
      have hlt := h.nonempty c List.mem_cons_self
      exact hlt.le.trans (h.append List.mem_cons_self List.mem_cons_self)
  · rw [List.getLast?_append, List.getLast?_cons, Option.some_or, Option.some_inj] at hb
    subst hb
    cases hafter : after.getLast? with
    | none => exact le_rfl
    | some b =>
      have hb : b ∈ after := List.mem_of_getLast? hafter
      rw [← List.singleton_append, ← List.append_assoc] at h
      have hle := h.append (List.mem_append_right before List.mem_cons_self) hb
      have hlt := h.nonempty b (List.mem_append_right _ hb)
      exact hle.trans hlt.le

lemma Ordered.span_within_span (h : Ordered ts) (hu : us <:+: ts) (hr : spanOf us = some r)
    (hr' : spanOf ts = some r') : r'.start ≤ r.start ∧ r.stop ≤ r'.stop := by
  obtain ⟨a, b, ha, hb, rfl⟩ := spanOf_eq_some.1 hr
  have ha := h.within_span hr' (hu.subset (List.mem_of_head? ha))
  have hb := h.within_span hr' (hu.subset (List.mem_of_getLast? hb))
  exact ⟨ha.1, hb.2⟩

lemma Ordered.span_before_span (h : Ordered (us ++ vs)) (hr : spanOf us = some r) (hr' : spanOf vs = some r') :
    r.stop ≤ r'.start := by
  obtain ⟨a, b, -, hb, rfl⟩ := spanOf_eq_some.1 hr
  obtain ⟨c, d, hc, -, rfl⟩ := spanOf_eq_some.1 hr'
  exact h.append (List.mem_of_getLast? hb) (List.mem_of_head? hc)

lemma Spread.before (h : Spread ts os) (ht : Ordered ts) :
    os.Pairwise fun a b => ∀ r ∈ regionOf a, ∀ r' ∈ regionOf b, r.stop ≤ r'.start := by
  induction h with
  | nil => exact .nil
  | dropped _ _ ih => exact ih (ht.of_infix (List.suffix_cons ..).isInfix)
  | @node us ts _ _ hn h ih =>
    refine List.pairwise_cons.2 ⟨fun b hb r hr r' hr' => ?_, ih (ht.of_infix (List.suffix_append us ts).isInfix)⟩
    obtain ⟨vs, hvs, hn'⟩ := h.member hb
    rw [hn.region] at hr
    rw [hn'.region] at hr'
    obtain ⟨x, y, rfl⟩ := hvs
    have hsub : (us ++ vs).Sublist (us ++ (x ++ vs ++ y)) :=
      (List.sublist_append_of_sublist_left (List.sublist_append_right x vs)).append_left us
    have hord : Ordered (us ++ vs) := ⟨fun t ht' => ht.nonempty t (hsub.subset ht'), ht.apart.sublist hsub⟩
    exact hord.span_before_span hr hr'

lemma Node.within {label : String} {span : Option Region} (h : Node ts (.rule label span os)) (ht : Ordered ts)
    (ho : o ∈ os) (hr : regionOf o = some r) :
    ∃ r', span = some r' ∧ r'.start ≤ r.start ∧ r.stop ≤ r'.stop := by
  cases h with
  | rule _ _ hd =>
    obtain ⟨us, hus, hn⟩ := hd.spread.member ho
    rw [hn.region] at hr
    obtain ⟨a, -, ha, -, -⟩ := spanOf_eq_some.1 hr
    have hne : ts ≠ [] := List.ne_nil_of_mem (hus.subset (List.mem_of_head? ha))
    have hspan := spanOf_eq_some.2
      ⟨_, _, List.head?_eq_some_head hne, List.getLast?_eq_some_getLast hne, rfl⟩
    exact ⟨_, hspan, ht.span_within_span hus hr hspan⟩

end Order

section Marks

def Marks (o : Outline) (r : Region) : Prop := ∃ o', Part o' o ∧ regionOf o' = some r

lemma Marks.self {o : Outline} {r : Region} (h : regionOf o = some r) : Marks o r := ⟨o, .self o, h⟩

lemma Marks.child {o : Outline} {label : String} {span : Option Region} {children : List Outline} {r : Region}
    (ho : o ∈ children) (h : Marks o r) : Marks (.rule label span children) r := by
  obtain ⟨o', hp, hr⟩ := h
  exact ⟨o', .child ho hp, hr⟩

lemma Marks.leaf (t : Token) : Marks (.leaf t) t.region := .self rfl

lemma Marks.expr (e : TypeExpr) : Marks (.ofExpr e) e.region := by
  cases e
  exact .self rfl

lemma Marks.attributes {as : List Attribute} {os : List Outline} {label : String} {span : Option Region} :
    ∀ a ∈ as, Marks (.rule label span (as.map Outline.ofAttribute ++ os)) a.region :=
  fun _ ha => .child (List.mem_append_left _ (List.mem_map_of_mem ha)) (.self rfl)

end Marks

end Grammar

end ShaderLayout.Description
