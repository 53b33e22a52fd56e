import ShaderLayout.Proofs.Description.Grammar
import ShaderLayout.Proofs.Description.Machine

/-!
What the machine has read. `State.Holds` says of the tokens read so far how the grammar derives them, up to where
the state stands; every step keeps it. So what is accepted is a sentence, and its tree is the outline.
-/

namespace ShaderLayout.Description

open Grammar

section Trees

lemma ofMembers_eq_map (ms : List Member) : Outline.ofMembers ms = ms.map Outline.ofMember := by
  induction ms with
  | nil => rfl
  | cons m ms ih => rw [Outline.ofMembers, ih, List.map_cons]

lemma regionOf_ofBody (r : Region) (b : Body) : regionOf (Outline.ofBody r b) = some r := by
  cases b with
  | sampler comparison => cases comparison <;> rfl
  | _ => rfl

lemma regionOf_ofExpr (e : TypeExpr) : regionOf (Outline.ofExpr e) = some e.region := by
  cases e
  rfl

lemma regionOf_ofItem (i : Item) : regionOf (Outline.ofItem i) = some i.region := by
  cases i <;> rfl

end Trees

section Parts

variable {ts us : List Token} {r : Region}

def Attributed (as : List Attribute) (ts : List Token) : Prop :=
  Derives [.many [.symbol .attribute]] ts (as.map Outline.ofAttribute)

lemma Attributed.nil : Attributed [] [] := .done .nil

lemma Attributed.concat {as : List Attribute} {a : Attribute} (h : Attributed as ts)
    (h' : Derives [.symbol .attribute] us [Outline.ofAttribute a]) : Attributed (as ++ [a]) (ts ++ us) := by
  rw [Attributed, List.map_append]
  exact h.many_concat h'

lemma Attributed.span {as : List Attribute} (h : Attributed as ts) (hr : spanOf us = some r) :
    spanOf (ts ++ us) = some ⟨Attribute.startOf as r.start, r.stop⟩ := by
  induction as generalizing ts with
  | nil =>
    rw [Derives.many_nil h]
    exact hr
  | cons a as ih =>
    obtain ⟨ta, ts', rfl, ha, h'⟩ := Derives.many_cons h
    rw [List.append_assoc, spanOf_append ha.region.symm (ih h')]
    rfl

lemma expr_derives {as : List Attribute} {body : Body} (ha : Attributed as ts)
    (hb : Derives [.symbol .typeBody] us [Outline.ofBody r body]) :
    Derives [.symbol .typeExpr] (ts ++ us) [Outline.ofExpr (.mk as r body)] := by
  have hr : spanOf us = some r := hb.region.symm.trans (regionOf_ofBody r body)
  exact Derives.node (by simp [rules]) (Derives.append ha hb) (ha.span hr)

lemma member_derives {as : List Attribute} {name colon : Token} {type : TypeExpr} (ha : Attributed as ts)
    (hn : name.terminal = .name) (hc : colon.terminal = .colon)
    (he : Derives [.symbol .typeExpr] us [Outline.ofExpr type]) :
    Derives [.symbol .member] (ts ++ name :: colon :: us) [Outline.ofMember (.mk as name type)] := by
  have hr : spanOf us = some type.region := he.region.symm.trans (regionOf_ofExpr type)
  have hhead : spanOf [name, colon] = some ⟨name.region.start, colon.region.stop⟩ := rfl
  exact Derives.node (by simp [rules]) (Derives.append ha (.kept hn rfl (.dropped hc rfl he)))
    (ha.span (spanOf_append hhead hr))

def Listed (ms : List Member) (ts : List Token) : Prop :=
  (ms = [] ∧ ts = []) ∨ ∃ us comma, ts = us ++ [comma] ∧ comma.terminal = .comma ∧
    Derives memberList us (Outline.ofMembers ms.reverse)

lemma Listed.add {ms : List Member} {m : Member} (h : Listed ms ts)
    (hm : Derives [.symbol .member] us [Outline.ofMember m]) :
    Derives memberList (ts ++ us) (Outline.ofMembers (m :: ms).reverse) := by
  rw [List.reverse_cons, ofMembers_eq_map, List.map_append, ← ofMembers_eq_map]
  obtain ⟨rfl, rfl⟩ | ⟨ts, comma, rfl, hc, h⟩ := h
  · have hnone : Derives [.many [.terminal .comma, .symbol .member]] [] [] := .done .nil
    have h := hm.append hnone
    rwa [List.append_nil] at h
  · obtain ⟨t1, t2, o1, o2, rfl, ho, h1, h2⟩ := derives_symbol_cons.1 h
    have hrest := h2.many_concat (.dropped hc rfl hm)
    rw [ho, List.append_assoc, List.append_assoc, List.append_assoc]
    exact h1.append hrest

end Parts

section Holding

def Within (outer : List Token → Prop) (as : List Attribute) (body ts : List Token) : Prop :=
  ∃ tc ta, ts = tc ++ (ta ++ body) ∧ outer tc ∧ Attributed as ta

/-- A body that has begun with a word and a mark, after its attributes and what is open around them. -/
def Begun (outer : List Token → Prop) (as : List Attribute) (start : Position) (word mark : Terminal)
    (inner ts : List Token) : Prop :=
  ∃ k l, Within outer as (k :: l :: inner) ts ∧ k.terminal = word ∧ l.terminal = mark ∧ k.region.start = start

def Defining (word : Terminal) (done : List Item) (start : Position) (name : Token) (inner ts : List Token) :
    Prop :=
  ∃ ti k, ts = ti ++ k :: name :: inner ∧ Derives [.many [.symbol .item]] ti (done.reverse.map Outline.ofItem) ∧
    k.terminal = word ∧ name.terminal = .name ∧ k.region.start = start

def Context.Holds : Context → List Token → Prop
  | definition done start name, ts => ∃ e, Defining .type done start name [e] ts ∧ e.terminal = .equal
  | pointer outer as start, ts => Begun outer.Holds as start .ptr .lessThan [] ts
  | valuePointer outer as start, ts => Begun outer.Holds as start .valuePtr .lessThan [] ts
  | array outer as start, ts => Begun outer.Holds as start .array .lessThan [] ts
  | member outer as start members own name, ts => ∃ tms ta c,
      Begun outer.Holds as start .struct .leftBrace (tms ++ (ta ++ [name, c])) ts ∧ Listed members tms ∧
        Attributed own ta ∧ name.terminal = .name ∧ c.terminal = .colon

def Opening.Begun (o : Opening) : Terminal → Terminal → List Token → List Token → Prop :=
  Description.Begun o.context.Holds o.attributes o.start

def Owner.Holds : Owner → List Token → Prop
  | expression context as, ts => Within context.Holds as [] ts
  | member o members as, ts => ∃ tms ta, o.Begun .struct .leftBrace (tms ++ ta) ts ∧ Listed members tms ∧
      Attributed as ta

def Owner.Holding (owner : Owner) (start : Position) (inner ts : List Token) : Prop :=
  ∃ t₀ k, ts = t₀ ++ k :: inner ∧ owner.Holds t₀ ∧ k.terminal = .atSign ∧ k.region.start = start

def State.Holds : State → List Token → Prop
  | items done, ts => Derives [.many [.symbol .item]] ts (done.reverse.map Outline.ofItem)
  | expect k next, ts => ∀ t : Token, t.terminal = k → next.Holds (ts ++ [t])
  | constName done start, ts => ∃ ti k, ts = ti ++ [k] ∧
      Derives [.many [.symbol .item]] ti (done.reverse.map Outline.ofItem) ∧ k.terminal = .const ∧
      k.region.start = start
  | constValue done start name, ts => ∃ e, Defining .const done start name [e] ts ∧ e.terminal = .equal
  | constEnd done start name value, ts => ∃ e tv, Defining .const done start name (e :: tv) ts ∧
      e.terminal = .equal ∧ Derives [.symbol .literal] tv [Outline.ofLiteral value]
  | typeName done start, ts => ∃ ti k, ts = ti ++ [k] ∧
      Derives [.many [.symbol .item]] ti (done.reverse.map Outline.ofItem) ∧ k.terminal = .type ∧
      k.region.start = start
  | typeEnd done start name expr, ts => ∃ e te, Defining .type done start name (e :: te) ts ∧
      e.terminal = .equal ∧ Derives [.symbol .typeExpr] te [Outline.ofExpr expr]
  | expression context as, ts => Within context.Holds as [] ts
  | attributeName owner start, ts => owner.Holding start [] ts
  | attributeValue owner start name, ts => ∃ l, owner.Holding start [name, l] ts ∧ name.terminal = .name ∧
      l.terminal = .leftParen
  | attributeEnd owner start name value, ts => ∃ l, owner.Holding start [name, l, value] ts ∧
      name.terminal = .name ∧ l.terminal = .leftParen ∧ value.terminal = .integer
  | vectorSize o, ts => o.Begun .vec .lessThan [] ts
  | vectorComponent o size, ts => ∃ c, o.Begun .vec .lessThan [size, c] ts ∧ size.terminal = .integer ∧
      c.terminal = .comma
  | matrixColumns o, ts => o.Begun .mat .lessThan [] ts
  | matrixRows o columns, ts => ∃ c, o.Begun .mat .lessThan [columns, c] ts ∧ columns.terminal = .integer ∧
      c.terminal = .comma
  | matrixComponent o columns rows, ts => ∃ c c', o.Begun .mat .lessThan [columns, c, rows, c'] ts ∧
      columns.terminal = .integer ∧ c.terminal = .comma ∧ rows.terminal = .integer ∧ c'.terminal = .comma
  | arrayRest o element, ts => ∃ te, o.Begun .array .lessThan te ts ∧
      Derives [.symbol .typeExpr] te [Outline.ofExpr element]
  | arrayLength o element, ts => ∃ te c, o.Begun .array .lessThan (te ++ [c]) ts ∧
      Derives [.symbol .typeExpr] te [Outline.ofExpr element] ∧ c.terminal = .comma
  | imageDimension o, ts => o.Begun .image .lessThan [] ts
  | imageRest o dimension, ts => o.Begun .image .lessThan [dimension] ts ∧ dimension.terminal = .name
  | imageFlag o dimension, ts => ∃ c, o.Begun .image .lessThan [dimension, c] ts ∧ dimension.terminal = .name ∧
      c.terminal = .comma
  | bodyEnd o body, ts => ∃ tb, Within o.context.Holds o.attributes tb ts ∧ ∀ m : Token, m.terminal = .moreThan →
      Derives [.symbol .typeBody] (tb ++ [m]) [Outline.ofBody ⟨o.start, m.region.stop⟩ body]
  | member o members as, ts => ∃ tms ta, o.Begun .struct .leftBrace (tms ++ ta) ts ∧ Listed members tms ∧
      Attributed as ta
  | memberEnd o members, ts => ∃ tms, o.Begun .struct .leftBrace tms ts ∧
      Derives memberList tms (Outline.ofMembers members.reverse)

end Holding

section Extending

variable {outer : List Token → Prop} {as : List Attribute} {start : Position} {word mark : Terminal}
  {inner ts : List Token}

lemma Within.append {body : List Token} (h : Within outer as body ts) (us : List Token) :
    Within outer as (body ++ us) (ts ++ us) := by
  obtain ⟨tc, ta, rfl, h⟩ := h
  exact ⟨tc, ta, by simp, h⟩

lemma Begun.append (h : Begun outer as start word mark inner ts) (us : List Token) :
    Begun outer as start word mark (inner ++ us) (ts ++ us) := by
  obtain ⟨k, l, h, hk, hl, hs⟩ := h
  exact ⟨k, l, h.append us, hk, hl, hs⟩

lemma Within.of_outer (h : outer ts) : Within outer [] [] ts := ⟨ts, [], by simp, h, .nil⟩

lemma Within.begin {k l : Token} (h : Within outer as [] ts) (hk : k.terminal = word) (hl : l.terminal = mark) :
    Begun outer as k.region.start word mark [] (ts ++ [k] ++ [l]) :=
  ⟨k, l, (h.append [k]).append [l], hk, hl, rfl⟩

lemma Defining.append {done : List Item} {name : Token} (h : Defining word done start name inner ts)
    (us : List Token) : Defining word done start name (inner ++ us) (ts ++ us) := by
  obtain ⟨ti, k, rfl, h⟩ := h
  exact ⟨ti, k, by simp, h⟩

lemma Owner.Holding.append {owner : Owner} (h : owner.Holding start inner ts) (us : List Token) :
    owner.Holding start (inner ++ us) (ts ++ us) := by
  obtain ⟨t₀, k, rfl, h⟩ := h
  exact ⟨t₀, k, by simp, h⟩

lemma spanOf_concat (k m : Token) (ts : List Token) :
    spanOf (k :: ts ++ [m]) = some ⟨k.region.start, m.region.stop⟩ :=
  spanOf_eq_some.2 ⟨k, m, rfl, List.getLast?_concat .., rfl⟩

lemma body_derives {label : String} {parts : List Form} {k m : Token} {os : List Outline}
    (hp : ⟨some label, parts⟩ ∈ rules .typeBody) (hk : k.region.start = start)
    (h : Derives parts (k :: ts ++ [m]) os) :
    Derives [.symbol .typeBody] (k :: ts ++ [m]) [.rule label (some ⟨start, m.region.stop⟩) os] :=
  Derives.node hp h (hk ▸ spanOf_concat k m ts)

end Extending

section Closing

variable {ts te : List Token} {e : TypeExpr}

lemma Defining.item {word : Terminal} {done : List Item} {start : Position} {name : Token} {inner : List Token}
    {i : Item} (h : Defining word done start name inner ts) (hi : ∀ k : Token, k.terminal = word →
      name.terminal = .name → k.region.start = start →
      Derives [.symbol .item] (k :: name :: inner) [Outline.ofItem i]) :
    (State.items (i :: done)).Holds ts := by
  obtain ⟨ti, k, rfl, hd, hk, hn, hs⟩ := h
  rw [State.Holds, List.reverse_cons, List.map_append]
  exact hd.many_concat (hi k hk hn hs)

lemma Context.holds_resume {context : Context} (hc : context.Holds ts)
    (he : Derives [.symbol .typeExpr] te [Outline.ofExpr e]) : (context.resume e).Holds (ts ++ te) := by
  cases context with
  | definition done start name =>
    obtain ⟨eq, hd, heq⟩ := hc
    exact ⟨eq, te, hd.append te, heq, he⟩
  | pointer outer as start =>
    obtain ⟨k, l, h, hk, hl, hs⟩ := hc
    refine ⟨k :: l :: te, h.append te, fun m hm => ?_⟩
    exact body_derives (by simp [rules]) hs (.dropped hk rfl (.dropped hl rfl (he.append (.dropped hm rfl .nil))))
  | valuePointer outer as start =>
    obtain ⟨k, l, h, hk, hl, hs⟩ := hc
    refine ⟨k :: l :: te, h.append te, fun m hm => ?_⟩
    exact body_derives (by simp [rules]) hs (.dropped hk rfl (.dropped hl rfl (he.append (.dropped hm rfl .nil))))
  | array outer as start => exact ⟨te, hc.append te, he⟩
  | member outer as start members own name =>
    obtain ⟨tms, ta, c, h, hms, ha, hn, hcolon⟩ := hc
    refine ⟨tms ++ (ta ++ name :: c :: te), ?_, hms.add (member_derives ha hn hcolon he)⟩
    have h := h.append te
    simp only [List.append_assoc, List.cons_append, List.nil_append] at h
    exact h

lemma Opening.holds_close {o : Opening} {tb : List Token} {stop : Position} {body : Body}
    (h : Within o.context.Holds o.attributes tb ts)
    (hb : Derives [.symbol .typeBody] tb [Outline.ofBody ⟨o.start, stop⟩ body]) :
    (o.close stop body).state.Holds ts := by
  obtain ⟨tc, ta, rfl, hc, ha⟩ := h
  exact Context.holds_resume hc (expr_derives ha hb)

lemma Owner.holds_add {owner : Owner} {ta : List Token} {a : Attribute} (h : owner.Holds ts)
    (ha : Derives [.symbol .attribute] ta [Outline.ofAttribute a]) : (owner.addAttribute a).Holds (ts ++ ta) := by
  cases owner with
  | expression context as =>
    obtain ⟨tc, tas, rfl, hc, has⟩ := h
    exact ⟨tc, tas ++ ta, by simp, hc, has.concat ha⟩
  | member o members as =>
    obtain ⟨tms, tas, h, hms, has⟩ := h
    exact ⟨tms, tas ++ ta, by rw [← List.append_assoc]; exact h.append ta, hms, has.concat ha⟩

lemma Opening.holds_struct {o : Opening} {tms : List Token} {m : Token} {ms : List Member}
    (h : o.Begun .struct .leftBrace tms ts) (hm : m.terminal = .rightBrace)
    (hd : Derives [.optional (memberList ++ [.optional [.terminal .comma]])] tms (Outline.ofMembers ms)) :
    (o.close m.region.stop (.struct ms)).state.Holds (ts ++ [m]) := by
  obtain ⟨k, l, h, hk, hl, hs⟩ := h
  refine Opening.holds_close (h.append [m]) ?_
  have hbody := hd.append (.dropped hm rfl .nil)
  rw [List.append_nil] at hbody
  exact body_derives (by simp [rules]) hs (.dropped hk rfl (.dropped hl rfl hbody))

end Closing

section Steps

variable {t : Token} {ts : List Token} {s : State} {c : Configuration}

lemma Step.holds (h : Step t s c) (hs : s.Holds ts) : c.state.Holds (ts ++ [t]) := by
  cases h with
  | const h => exact ⟨ts, t, rfl, hs, h, rfl⟩
  | type h => exact ⟨ts, t, rfl, hs, h, rfl⟩
  | expect h => exact hs t h
  | constName h =>
    obtain ⟨ti, k, rfl, hi, hk, hstart⟩ := hs
    exact fun e he => ⟨e, ⟨ti, k, by simp, hi, hk, h, hstart⟩, he⟩
  | integer h =>
    obtain ⟨e, hd, he⟩ := hs
    exact ⟨e, [t], hd.append [t], he, Derives.node (by simp [rules]) (.kept h rfl .nil) rfl⟩
  | float h =>
    obtain ⟨e, hd, he⟩ := hs
    exact ⟨e, [t], hd.append [t], he, Derives.node (by simp [rules]) (.kept h rfl .nil) rfl⟩
  | trueWord h =>
    obtain ⟨e, hd, he⟩ := hs
    exact ⟨e, [t], hd.append [t], he, Derives.node (by simp [rules]) (.dropped h rfl .nil) rfl⟩
  | falseWord h =>
    obtain ⟨e, hd, he⟩ := hs
    exact ⟨e, [t], hd.append [t], he, Derives.node (by simp [rules]) (.dropped h rfl .nil) rfl⟩
  | @constEnd done start name value h =>
    obtain ⟨e, tv, hd, he, hv⟩ := hs
    refine (hd.append [t]).item fun k hk hn hstart => ?_
    have hdef : Derives [.symbol .constDef] (k :: name :: e :: tv ++ [t])
        [Outline.ofItem (.constant ⟨start, t.region.stop⟩ name value)] :=
      Derives.node (by simp [rules]) (.dropped hk rfl (.kept hn rfl (.dropped he rfl (hv.append
        (.dropped h rfl .nil))))) (hstart ▸ spanOf_concat k t (name :: e :: tv))
    exact derives_symbol.2 ⟨⟨none, [.symbol .constDef]⟩, by simp [rules], _, hdef, rfl⟩
  | typeName h =>
    obtain ⟨ti, k, rfl, hi, hk, hstart⟩ := hs
    exact fun e he => Within.of_outer ⟨e, ⟨ti, k, by simp, hi, hk, h, hstart⟩, he⟩
  | @typeEnd done start name expr h =>
    obtain ⟨e, te, hd, he, hexpr⟩ := hs
    refine (hd.append [t]).item fun k hk hn hstart => ?_
    have hdef : Derives [.symbol .typeDef] (k :: name :: e :: te ++ [t])
        [Outline.ofItem (.type ⟨start, t.region.stop⟩ name expr)] :=
      Derives.node (by simp [rules]) (.dropped hk rfl (.kept hn rfl (.dropped he rfl (hexpr.append
        (.dropped h rfl .nil))))) (hstart ▸ spanOf_concat k t (name :: e :: te))
    exact derives_symbol.2 ⟨⟨none, [.symbol .typeDef]⟩, by simp [rules], _, hdef, rfl⟩
  | typeAttribute h => exact ⟨ts, t, rfl, hs, h, rfl⟩
  | memberAttribute h => exact ⟨ts, t, rfl, hs, h, rfl⟩
  | attributeName h => exact fun l hl => ⟨l, (hs.append [t]).append [l], h, hl⟩
  | attributeValue h =>
    obtain ⟨l, hs, hn, hl⟩ := hs
    exact ⟨l, hs.append [t], hn, hl, h⟩
  | attributeEnd h =>
    obtain ⟨l, ⟨t₀, k, rfl, ho, hk, hstart⟩, hn, hl, hv⟩ := hs
    rw [List.append_assoc]
    refine Owner.holds_add ho ?_
    exact Derives.node (by simp [rules]) (.dropped hk rfl (.kept hn rfl (.dropped hl rfl (.kept hv rfl
      (.dropped h rfl .nil))))) (hstart ▸ spanOf_concat k t [_, l, _])
  | named h =>
    exact Opening.holds_close (Within.append hs [t]) (Derives.node (by simp [rules]) (.kept h rfl .nil) rfl)
  | sampler h =>
    exact Opening.holds_close (Within.append hs [t]) (Derives.node (by simp [rules]) (.dropped h rfl .nil) rfl)
  | samplerComparison h =>
    exact Opening.holds_close (Within.append hs [t]) (Derives.node (by simp [rules]) (.dropped h rfl .nil) rfl)
  | vec h => exact fun l hl => hs.begin h hl
  | mat h => exact fun l hl => hs.begin h hl
  | ptr h => exact fun l hl => Within.of_outer (hs.begin h hl)
  | valuePtr h => exact fun l hl => Within.of_outer (hs.begin h hl)
  | array h => exact fun l hl => Within.of_outer (hs.begin h hl)
  | struct h => exact fun l hl => ⟨[], [], hs.begin h hl, .inl ⟨rfl, rfl⟩, .nil⟩
  | image h => exact fun l hl => hs.begin h hl
  | vectorSize h => exact fun l hl => ⟨l, (hs.append [t]).append [l], h, hl⟩
  | vectorComponent h =>
    obtain ⟨c, ⟨k, l, hs, hk, hl, hstart⟩, hsize, hc⟩ := hs
    refine ⟨_, hs.append [t], fun m hm => ?_⟩
    exact body_derives (by simp [rules]) hstart (.dropped hk rfl (.dropped hl rfl (.kept hsize rfl (.dropped hc rfl
      (.kept h rfl (.dropped hm rfl .nil))))))
  | matrixColumns h => exact fun l hl => ⟨l, (hs.append [t]).append [l], h, hl⟩
  | matrixRows h =>
    obtain ⟨l, hs, hc, hl⟩ := hs
    exact fun l' hl' => ⟨l, l', (hs.append [t]).append [l'], hc, hl, h, hl'⟩
  | matrixComponent h =>
    obtain ⟨c, c', ⟨k, l, hs, hk, hl, hstart⟩, hcols, hc, hrows, hc'⟩ := hs
    refine ⟨_, hs.append [t], fun m hm => ?_⟩
    exact body_derives (by simp [rules]) hstart (.dropped hk rfl (.dropped hl rfl (.kept hcols rfl (.dropped hc rfl
      (.kept hrows rfl (.dropped hc' rfl (.kept h rfl (.dropped hm rfl .nil))))))))
  | arrayComma h =>
    obtain ⟨te, hs, he⟩ := hs
    exact ⟨te, t, hs.append [t], he, h⟩
  | arrayEnd h =>
    obtain ⟨te, ⟨k, l, hs, hk, hl, hstart⟩, he⟩ := hs
    have hnone : Derives [.optional [.terminal .comma, .symbol .arrayLen], .terminal .moreThan] [t] [] :=
      .absent (.dropped h rfl .nil)
    refine Opening.holds_close (hs.append [t]) ?_
    exact body_derives (by simp [rules]) hstart (.dropped hk rfl (.dropped hl rfl (he.append hnone)))
  | arrayLength h =>
    obtain ⟨te, c, ⟨k, l, hs, hk, hl, hstart⟩, he, hc⟩ := hs
    have hlength : Derives [.symbol .arrayLen] [t] (Outline.ofLength (some t)) := by
      obtain h | h := h
      · exact Derives.node (by simp [rules]) (.kept h rfl .nil) rfl
      · exact Derives.node (by simp [rules]) (.kept h rfl .nil) rfl
    refine ⟨_, hs.append [t], fun m hm => ?_⟩
    have hrest : Derives [.optional [.terminal .comma, .symbol .arrayLen], .terminal .moreThan] ([c, t] ++ [m]) _ :=
      .present (.dropped hc rfl hlength) (.dropped hm rfl .nil)
    have hts : k :: l :: (te ++ [c]) ++ [t] ++ [m] = k :: (l :: te ++ [c, t]) ++ [m] := by simp
    have hassoc : te ++ ([c, t] ++ [m]) = te ++ [c, t] ++ [m] := (List.append_assoc ..).symm
    rw [hts]
    exact body_derives (by simp [rules]) hstart (.dropped hk rfl (.dropped hl rfl (hassoc ▸ he.append hrest)))
  | imageDimension h => exact ⟨hs.append [t], h⟩
  | imageComma h => exact ⟨t, hs.1.append [t], hs.2, h⟩
  | imageEnd h =>
    obtain ⟨⟨k, l, hs, hk, hl, hstart⟩, hd⟩ := hs
    have hnone : Derives [.optional [.terminal .comma, .terminal .name], .terminal .moreThan] [t] [] :=
      .absent (.dropped h rfl .nil)
    refine Opening.holds_close (hs.append [t]) ?_
    exact body_derives (by simp [rules]) hstart (.dropped hk rfl (.dropped hl rfl (.kept hd rfl hnone)))
  | imageFlag h =>
    obtain ⟨c, ⟨k, l, hs, hk, hl, hstart⟩, hd, hc⟩ := hs
    refine ⟨_, hs.append [t], fun m hm => ?_⟩
    have hflag : Derives [.optional [.terminal .comma, .terminal .name], .terminal .moreThan] ([c, t] ++ [m]) _ :=
      .present (.dropped hc rfl (.kept h rfl .nil)) (.dropped hm rfl .nil)
    exact body_derives (by simp [rules]) hstart (.dropped hk rfl (.dropped hl rfl (.kept hd rfl hflag)))
  | bodyEnd h =>
    obtain ⟨tb, hs, hb⟩ := hs
    exact Opening.holds_close (hs.append [t]) (hb t h)
  | memberName h =>
    obtain ⟨tms, ta, hb, hms, ha⟩ := hs
    refine fun c hc => Within.of_outer ⟨tms, ta, c, ?_, hms, ha, h, hc⟩
    have hb := (hb.append [t]).append [c]
    rwa [List.append_assoc, List.append_assoc] at hb
  | noMember h =>
    obtain ⟨tms, ta, hb, hms, ha⟩ := hs
    -- Without attributes the struct may end here: it is empty, or its last comma was read.
    obtain rfl := Derives.many_nil ha
    rw [List.append_nil] at hb
    refine Opening.holds_struct hb h ?_
    obtain ⟨rfl, rfl⟩ | ⟨us, comma, rfl, hc, hd⟩ := hms
    · exact .absent .nil
    · have hall := hd.append (Derives.optional (.dropped hc rfl .nil))
      rw [List.append_nil] at hall
      exact Derives.optional hall
  | memberComma h =>
    obtain ⟨tms, hb, hd⟩ := hs
    refine ⟨tms ++ [t], [], ?_, .inr ⟨tms, t, rfl, h, hd⟩, .nil⟩
    rw [List.append_nil]
    exact hb.append [t]
  | structEnd h =>
    obtain ⟨tms, hb, hd⟩ := hs
    have hnone : Derives [.optional [.terminal .comma]] [] [] := .absent .nil
    have hall := hd.append hnone
    rw [List.append_nil, List.append_nil] at hall
    exact Opening.holds_struct hb h (Derives.optional hall)

lemma State.holds_after {s' : State} {us : List Token} (hs : s.Holds ts) (h : s.after us = some s') :
    s'.Holds (ts ++ us) := by
  induction us generalizing s ts with
  | nil =>
    cases h
    rwa [List.append_nil]
  | cons t us ih =>
    rw [State.after_cons, Option.bind_eq_some_iff] at h
    obtain ⟨c, hc, h⟩ := h
    rw [← List.singleton_append, ← List.append_assoc]
    exact ih ((step_of_advance hc).holds hs) h

lemma regionOf_items {items : List Item} (h : Derives [.many [.symbol .item]] ts (items.map Outline.ofItem)) :
    spanOf ts = Outline.regionOf items := by
  induction items generalizing ts with
  | nil => rw [Derives.many_nil h]; rfl
  | cons i items ih =>
    obtain ⟨ti, ts', rfl, hi, h'⟩ := Derives.many_cons h
    have hspan : spanOf ti = some i.region := hi.region.symm.trans (regionOf_ofItem i)
    cases items with
    | nil =>
      rw [Derives.many_nil h', List.append_nil, hspan]
      rfl
    | cons j items =>
      obtain ⟨b, hb⟩ : ∃ b, (j :: items).getLast? = some b := ⟨_, List.getLast?_cons⟩
      have hrest : spanOf ts' = some ⟨j.region.start, b.region.stop⟩ := by
        rw [ih h', Outline.regionOf, hb]
        rfl
      rw [spanOf_append hspan hrest, Outline.regionOf, List.getLast?_cons_cons, hb]
      rfl

lemma sentence_of_after {done : List Item} (h : (State.items []).after ts = some (.items done)) :
    Sentence ts (Outline.ofItems done.reverse) := by
  have hstart : (State.items []).Holds [] := .done .nil
  have hs := State.holds_after hstart h
  rw [List.nil_append, State.Holds] at hs
  refine derives_symbol.2 ⟨⟨some "start", [.many [.symbol .item]]⟩, by simp [rules], _, hs, ?_⟩
  rw [Production.tree, regionOf_items hs]
  rfl

end Steps

end ShaderLayout.Description
