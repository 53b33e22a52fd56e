import ShaderLayout.Proofs.Description.Deriving

/-!
Sentences are accepted. Where the grammar derives a part, the machine reads its tokens and arrives with the
syntax whose outline is the tree. Type expressions are nested, so the induction is on the number of tokens.
-/

namespace ShaderLayout.Description

open Grammar

section Inversion

variable {ps : List Form} {ts : List Token} {os : List Outline}

lemma derives_many_append {f : List Form} (h : Derives (.many f :: ps) ts os) :
    ∃ us us' vs vs', ts = us ++ us' ∧ os = vs ++ vs' ∧ Derives [.many f] us vs ∧ Derives ps us' vs' := by
  generalize hq : Form.many f :: ps = q at h
  induction h with
  | done hr =>
    cases hq
    exact ⟨[], _, [], _, rfl, rfl, .done .nil, hr⟩
  | again hs _ _ ih =>
    cases hq
    obtain ⟨us, us', vs, vs', rfl, rfl, h, h'⟩ := ih rfl
    exact ⟨_, us', _, vs', (List.append_assoc ..).symm, (List.append_assoc ..).symm, .again hs h, h'⟩
  | _ => cases hq

end Inversion

section Reading

variable {s s' s'' : State} {t : Token} {ts us : List Token} {c : Configuration}

lemma Step.reads (h : Step t s c) (h' : c.state.after ts = some s') : s.after (t :: ts) = some s' :=
  (State.after_of_step h ts).trans h'

lemma State.reads_append (h : s.after ts = some s') (h' : s'.after us = some s'') :
    s.after (ts ++ us) = some s'' :=
  (State.after_of_append h us).trans h'

lemma many_after {α β : Type} {f : List Form} {g : α → Outline} {n : Nat} (st : β → State) (push : β → α → β)
    (hf : ∀ ts os, ts.length < n → Derives f ts os →
      ∃ a, os = [g a] ∧ ∀ b, (st b).after ts = some (st (push b a)))
    {os : List Outline} (hn : ts.length < n) (h : Derives [.many f] ts os) :
    ∃ as : List α, os = as.map g ∧ ∀ b, (st b).after ts = some (st (as.foldl push b)) := by
  generalize hq : [Form.many f] = q at h
  induction h with
  | done hr =>
    cases hq
    obtain ⟨rfl, rfl⟩ := derives_nil.1 hr
    exact ⟨[], rfl, fun b => rfl⟩
  | @again _ _ ts us os vs hs _ _ ih =>
    cases hq
    rw [List.length_append] at hn
    obtain ⟨a, rfl, ha⟩ := hf _ _ (by omega) hs
    obtain ⟨as, rfl, has⟩ := ih (by omega) rfl
    exact ⟨a :: as, rfl, fun b => State.reads_append (ha b) (has _)⟩
  | _ => cases hq

end Reading

section Attributes

variable {ts : List Token} {os : List Outline}

def Owner.state : Owner → State
  | expression context attributes => .expression context attributes
  | member opening members attributes => .member opening members attributes

def Owner.push : Owner → Attribute → Owner
  | expression context as, a => expression context (as ++ [a])
  | member o members as, a => member o members (as ++ [a])

lemma attribute_after (h : Derives [.symbol .attribute] ts os) : ∃ a, os = [Outline.ofAttribute a] ∧
    ∀ owner : Owner, owner.state.after ts = some (owner.push a).state := by
  obtain ⟨p, hp, vs, hd, rfl⟩ := derives_symbol.1 h
  obtain rfl := List.mem_singleton.1 hp
  simp only [derives_terminal, derives_nil] at hd
  obtain ⟨k, _, _, rfl, rfl, hk, name, _, _, rfl, rfl, hn, l, _, _, rfl, rfl, hl, value, _, _, rfl, rfl, hv, r, _, _,
    rfl, rfl, hr, rfl, rfl⟩ := hd
  refine ⟨⟨name, value, ⟨k.region.start, r.region.stop⟩⟩, ?_, fun owner => ?_⟩
  · simp only [leaf, kept, hk, hn, hl, hv, hr]
    rfl
  have hs : Step k owner.state (Configuration.plain (.attributeName owner k.region.start)) := by
    cases owner with
    | expression context as => exact .typeAttribute hk
    | member o members as => exact .memberAttribute hk
  refine hs.reads (Step.reads (.attributeName hn) (Step.reads (.expect hl) (Step.reads (.attributeValue hv)
    (Step.reads (.attributeEnd hr) ?_))))
  cases owner <;> rfl

lemma attributes_after (h : Derives [.many [.symbol .attribute]] ts os) :
    ∃ as : List Attribute, os = as.map Outline.ofAttribute ∧
      ∀ owner : Owner, owner.state.after ts = some (as.foldl Owner.push owner).state :=
  many_after Owner.state Owner.push (fun _ _ _ => attribute_after) (Nat.lt_succ_self _) h

lemma foldl_push_expression (context : Context) (as bs : List Attribute) :
    bs.foldl Owner.push (.expression context as) = .expression context (as ++ bs) := by
  induction bs generalizing as with
  | nil => simp
  | cons b bs ih => simp [Owner.push, ih]

lemma foldl_push_member (o : Opening) (ms : List Member) (as bs : List Attribute) :
    bs.foldl Owner.push (.member o ms as) = .member o ms (as ++ bs) := by
  induction bs generalizing as with
  | nil => simp
  | cons b bs ih => simp [Owner.push, ih]

end Attributes

section Expressions

/-- Type expressions of fewer than `n` tokens are read, whatever is open around them. -/
def Completes (n : Nat) : Prop :=
  ∀ ts os, ts.length < n → Derives [.symbol .typeExpr] ts os →
    ∃ e, os = [Outline.ofExpr e] ∧
      ∀ context : Context, (State.expression context []).after ts = some (context.resume e)

variable {ts : List Token} {os : List Outline} {n : Nat}

lemma member_after (hn : Completes n) (hlen : ts.length ≤ n) (h : Derives [.symbol .member] ts os) :
    ∃ m, os = [Outline.ofMember m] ∧
      ∀ o ms, (State.member o ms []).after ts = some (.memberEnd o (m :: ms)) := by
  obtain ⟨p, hp, vs, hd, rfl⟩ := derives_symbol.1 h
  obtain rfl := List.mem_singleton.1 hp
  obtain ⟨ta, us, oa, vs, rfl, rfl, ha, hd⟩ := derives_many_append hd
  simp only [derives_terminal] at hd
  obtain ⟨name, _, _, rfl, rfl, hname, c, te, oe, rfl, rfl, hc, he⟩ := hd
  simp only [List.length_append, List.length_cons] at hlen
  obtain ⟨as, rfl, has⟩ := attributes_after ha
  obtain ⟨e, rfl, hexpr⟩ := hn te oe (by omega) he
  refine ⟨.mk as name e, ?_, fun o ms => ?_⟩
  · have hm := (member_derives ha hname hc he).region
    have hchildren : leaf name ++ (leaf c ++ [Outline.ofExpr e]) = [.leaf name, Outline.ofExpr e] := by
      simp [leaf, kept, hname, hc]
    rw [Production.tree, ← hm, hchildren]
    rfl
  · have hattrs := has (.member o ms [])
    rw [foldl_push_member] at hattrs
    exact State.reads_append hattrs (Step.reads (.memberName hname) (Step.reads (.expect hc) (hexpr _)))

lemma foldl_members (o : Opening) (ms rest : List Member) :
    rest.foldl (fun b m => (b.1, m :: b.2)) (o, ms) = (o, rest.reverse ++ ms) := by
  induction rest generalizing ms with
  | nil => rfl
  | cons m rest ih => simp [ih]

lemma members_after (hn : Completes n) (hlen : ts.length ≤ n)
    (h : Derives (memberList ++ [.optional [.terminal .comma]]) ts os) :
    ∃ ms, os = Outline.ofMembers ms ∧ ∀ (o : Opening) (m : Token), m.terminal = .rightBrace →
      (State.member o [] []).after (ts ++ [m]) = some (o.close m.region.stop (.struct ms)).state := by
  obtain ⟨t₁, us, o₁, vs, rfl, rfl, h₁, hd⟩ := derives_symbol_cons.1 h
  obtain ⟨t₂, t₃, o₂, o₃, rfl, rfl, h₂, h₃⟩ := derives_many_append hd
  simp only [List.length_append] at hlen
  obtain ⟨first, rfl, hfirst⟩ := member_after hn (by omega) h₁
  -- The members after the first are read from the state that follows a member.
  have hnext : ∀ ts os, ts.length < n + 1 → Derives [.terminal .comma, .symbol .member] ts os →
      ∃ m, os = [Outline.ofMember m] ∧ ∀ b : Opening × List Member,
        (State.memberEnd b.1 b.2).after ts = some (State.memberEnd b.1 (m :: b.2)) := by
    intro ts os hlen h
    obtain ⟨c, us, vs, rfl, rfl, hc, h⟩ := derives_terminal.1 h
    rw [List.length_cons] at hlen
    obtain ⟨m, rfl, hm⟩ := member_after hn (by omega) h
    refine ⟨m, by simp [leaf, kept, hc], fun b => Step.reads (.memberComma hc) (hm _ _)⟩
  obtain ⟨rest, rfl, hrest⟩ := many_after (fun b => State.memberEnd b.1 b.2) (fun b m => (b.1, m :: b.2)) hnext
    (by omega) h₂
  have hend : o₃ = [] ∧ ∀ (o : Opening) (ms : List Member) (m : Token), m.terminal = .rightBrace →
      (State.memberEnd o ms).after (t₃ ++ [m]) = some (o.close m.region.stop (.struct ms.reverse)).state := by
    obtain hnone | ⟨_, _, _, _, rfl, rfl, hcomma, hnone⟩ := derives_optional.1 h₃
    · obtain ⟨rfl, rfl⟩ := derives_nil.1 hnone
      exact ⟨rfl, fun o ms m hm => Step.reads (.structEnd hm) rfl⟩
    · obtain ⟨rfl, rfl⟩ := derives_nil.1 hnone
      obtain ⟨c, _, _, rfl, rfl, hc, hempty⟩ := derives_terminal.1 hcomma
      obtain ⟨rfl, rfl⟩ := derives_nil.1 hempty
      refine ⟨by simp [leaf, kept, hc], fun o ms m hm => ?_⟩
      exact Step.reads (.memberComma hc) (Step.reads (.noMember hm) rfl)
  obtain ⟨rfl, hend⟩ := hend
  refine ⟨first :: rest, ?_, fun o m hm => ?_⟩
  · rw [List.append_nil, ofMembers_eq_map]
    rfl
  · rw [List.append_assoc, List.append_assoc]
    have hlast := hend o (rest.reverse ++ [first]) m hm
    rw [List.reverse_append, List.reverse_reverse] at hlast
    have hread := hrest (o, [first])
    rw [foldl_members] at hread
    exact State.reads_append (hfirst o []) (State.reads_append hread hlast)

lemma inner_after {k l : Token} {us : List Token} (hn : Completes n) (hlen : (k :: l :: us).length ≤ n)
    (h : Derives [.symbol .typeExpr, .terminal .moreThan] us os) :
    ∃ te m e, us = te ++ [m] ∧ os = [Outline.ofExpr e] ∧ m.terminal = .moreThan ∧
      ∀ context : Context, (State.expression context []).after te = some (context.resume e) := by
  obtain ⟨te, us', oe, vs', rfl, rfl, he, hd⟩ := derives_symbol_cons.1 h
  simp only [derives_terminal, derives_nil] at hd
  obtain ⟨m, _, _, rfl, rfl, hm, rfl, rfl⟩ := hd
  simp only [List.length_cons, List.length_append] at hlen
  obtain ⟨e, rfl, hexpr⟩ := hn te oe (by omega) he
  exact ⟨te, m, e, rfl, by simp [leaf, kept, hm], hm, hexpr⟩

lemma arrayLen_after (h : Derives [.symbol .arrayLen] ts os) : ∃ t, ts = [t] ∧ os = Outline.ofLength (some t) ∧
    (t.terminal = .integer ∨ t.terminal = .name) := by
  obtain ⟨p, hp, vs, hd, rfl⟩ := derives_symbol.1 h
  simp only [rules, List.mem_cons, List.not_mem_nil, or_false] at hp
  obtain rfl | rfl := hp
  · simp only [derives_terminal, derives_nil] at hd
    obtain ⟨t, _, _, rfl, rfl, ht, rfl, rfl⟩ := hd
    refine ⟨t, rfl, ?_, .inl ht⟩
    simp only [leaf, kept, ht]
    rfl
  · simp only [derives_terminal, derives_nil] at hd
    obtain ⟨t, _, _, rfl, rfl, ht, rfl, rfl⟩ := hd
    refine ⟨t, rfl, ?_, .inr ht⟩
    simp only [leaf, kept, ht]
    rfl

def ReadsBody (label : String) (ts : List Token) (os : List Outline) : Prop :=
  ∃ r b, Outline.rule label (spanOf ts) os = Outline.ofBody r b ∧ ∀ (context : Context) as,
    (State.expression context as).after ts = some (context.resume (.mk as r b))

lemma ReadsBody.of_last {label : String} {k m : Token} {b : Body} (hm : (k :: ts).getLast? = some m)
    (hb : Outline.ofBody ⟨k.region.start, m.region.stop⟩ b = .rule label (some ⟨k.region.start, m.region.stop⟩) os)
    (hr : ∀ (context : Context) as, (State.expression context as).after (k :: ts) =
      some (context.resume (.mk as ⟨k.region.start, m.region.stop⟩ b))) : ReadsBody label (k :: ts) os := by
  refine ⟨_, b, ?_, hr⟩
  rw [hb, spanOf_eq_some.2 ⟨k, m, rfl, hm, rfl⟩]

lemma single_after {word : Terminal} {label : String} {b : Token → Body}
    (hb : ∀ k r, k.terminal = word → Outline.ofBody r (b k) = .rule label (some r) (leaf k))
    (hstep : ∀ k context as, k.terminal = word →
      Step k (.expression context as) (Opening.close ⟨context, as, k.region.start⟩ k.region.stop (b k)))
    (h : Derives [.terminal word] ts os) : ReadsBody label ts os := by
  simp only [derives_terminal, derives_nil] at h
  obtain ⟨k, _, _, rfl, rfl, hk, rfl, rfl⟩ := h
  rw [List.append_nil]
  exact .of_last rfl (hb k _ hk) fun context as => Step.reads (hstep k context as hk) rfl

lemma vector_after (h : Derives [.terminal .vec, .terminal .lessThan, .terminal .integer, .terminal .comma,
    .terminal .name, .terminal .moreThan] ts os) : ReadsBody "vector_t" ts os := by
  simp only [derives_terminal, derives_nil] at h
  obtain ⟨k, _, _, rfl, rfl, hk, l, _, _, rfl, rfl, hl, size, _, _, rfl, rfl, hs, c, _, _, rfl, rfl, hc,
    name, _, _, rfl, rfl, hn, m, _, _, rfl, rfl, hm, rfl, rfl⟩ := h
  simp only [leaf, kept, hk, hl, hs, hc, hn, hm]
  refine .of_last (b := .vector size name) rfl rfl fun context as => ?_
  exact Step.reads (.vec hk) (Step.reads (.expect hl) (Step.reads (.vectorSize hs) (Step.reads (.expect hc)
    (Step.reads (.vectorComponent hn) (Step.reads (.bodyEnd hm) rfl)))))

lemma matrix_after (h : Derives [.terminal .mat, .terminal .lessThan, .terminal .integer, .terminal .comma,
    .terminal .integer, .terminal .comma, .terminal .name, .terminal .moreThan] ts os) :
    ReadsBody "matrix_t" ts os := by
  simp only [derives_terminal, derives_nil] at h
  obtain ⟨k, _, _, rfl, rfl, hk, l, _, _, rfl, rfl, hl, columns, _, _, rfl, rfl, hcols, c, _, _, rfl, rfl, hc,
    rows, _, _, rfl, rfl, hrows, c', _, _, rfl, rfl, hc', name, _, _, rfl, rfl, hn, m, _, _, rfl, rfl, hm,
    rfl, rfl⟩ := h
  simp only [leaf, kept, hk, hl, hcols, hc, hrows, hc', hn, hm]
  refine .of_last (b := .matrix columns rows name) rfl rfl fun context as => ?_
  exact Step.reads (.mat hk) (Step.reads (.expect hl) (Step.reads (.matrixColumns hcols) (Step.reads (.expect hc)
    (Step.reads (.matrixRows hrows) (Step.reads (.expect hc') (Step.reads (.matrixComponent hn)
      (Step.reads (.bodyEnd hm) rfl)))))))

lemma image_after (h : Derives [.terminal .image, .terminal .lessThan, .terminal .name,
    .optional [.terminal .comma, .terminal .name], .terminal .moreThan] ts os) : ReadsBody "image_t" ts os := by
  simp only [derives_terminal, derives_optional, derives_nil] at h
  obtain ⟨k, _, _, rfl, rfl, hk, l, _, _, rfl, rfl, hl, d, _, _, rfl, rfl, hd, hrest⟩ := h
  obtain ⟨m, _, _, rfl, rfl, hm, rfl, rfl⟩ | ⟨_, _, _, _, rfl, rfl, ⟨c, _, _, rfl, rfl, hc, f, _, _, rfl, rfl, hf,
    rfl, rfl⟩, m, _, _, rfl, rfl, hm, rfl, rfl⟩ := hrest
  · simp only [leaf, kept, hk, hl, hd, hm]
    refine .of_last (b := .image d none) rfl rfl fun context as => ?_
    exact Step.reads (.image hk) (Step.reads (.expect hl) (Step.reads (.imageDimension hd)
      (Step.reads (.imageEnd hm) rfl)))
  · simp only [leaf, kept, hk, hl, hd, hc, hf, hm]
    refine .of_last (b := .image d (some f)) rfl rfl fun context as => ?_
    exact Step.reads (.image hk) (Step.reads (.expect hl) (Step.reads (.imageDimension hd)
      (Step.reads (.imageComma hc) (Step.reads (.imageFlag hf) (Step.reads (.bodyEnd hm) rfl)))))

lemma bracketed_after {word : Terminal} {label : String} {b : TypeExpr → Body}
    {within : Context → List Attribute → Position → Context} (hn : Completes n) (hlen : ts.length ≤ n)
    (hword : kept word = false) (hb : ∀ r e, Outline.ofBody r (b e) = .rule label (some r) [Outline.ofExpr e])
    (hresume : ∀ context as start e, (within context as start).resume e = .bodyEnd ⟨context, as, start⟩ (b e))
    (hstep : ∀ k context as, k.terminal = word → Step k (.expression context as)
      (Configuration.plain (.expect .lessThan (.expression (within context as k.region.start) []))))
    (h : Derives [.terminal word, .terminal .lessThan, .symbol .typeExpr, .terminal .moreThan] ts os) :
    ReadsBody label ts os := by
  simp only [derives_terminal] at h
  obtain ⟨k, _, _, rfl, rfl, hk, l, _, _, rfl, rfl, hl, hrest⟩ := h
  obtain ⟨te, m, e, rfl, rfl, hm, he⟩ := inner_after hn hlen hrest
  have hleaves : leaf k ++ (leaf l ++ [Outline.ofExpr e]) = [Outline.ofExpr e] := by
    have hmark : kept l.terminal = false := by rw [hl]; rfl
    simp [leaf, hk, hword, hmark]
  rw [hleaves]
  refine .of_last (List.getLast?_concat (l := k :: l :: te)) (hb _ e) fun context as => ?_
  have hinner := he (within context as k.region.start)
  rw [hresume] at hinner
  exact Step.reads (hstep k context as hk) (Step.reads (.expect hl)
    (State.reads_append hinner (Step.reads (.bodyEnd hm) rfl)))

lemma array_after (hn : Completes n) (hlen : ts.length ≤ n) (h : Derives [.terminal .array, .terminal .lessThan,
    .symbol .typeExpr, .optional [.terminal .comma, .symbol .arrayLen], .terminal .moreThan] ts os) :
    ReadsBody "array_t" ts os := by
  simp only [derives_terminal] at h
  obtain ⟨k, _, _, rfl, rfl, hk, l, _, _, rfl, rfl, hl, h⟩ := h
  obtain ⟨te, us, oe, vs, rfl, rfl, he, hrest⟩ := derives_symbol_cons.1 h
  simp only [List.length_cons, List.length_append] at hlen
  obtain ⟨e, rfl, hexpr⟩ := hn te oe (by omega) he
  simp only [derives_optional, derives_terminal, derives_nil] at hrest
  obtain ⟨m, _, _, rfl, rfl, hm, rfl, rfl⟩ | ⟨_, _, _, _, rfl, rfl, ⟨c, _, _, rfl, rfl, hc, hlength⟩,
    m, _, _, rfl, rfl, hm, rfl, rfl⟩ := hrest
  · simp only [leaf, kept, hk, hl, hm]
    refine .of_last (b := .array e none) (List.getLast?_concat (l := k :: l :: te)) rfl fun context as => ?_
    exact Step.reads (.array hk) (Step.reads (.expect hl) (State.reads_append (hexpr _)
      (Step.reads (.arrayEnd hm) rfl)))
  · obtain ⟨t, rfl, rfl, ht⟩ := arrayLen_after hlength
    simp only [leaf, kept, hk, hl, hc, hm]
    have hlast : (k :: l :: (te ++ ([c, t] ++ [m]))).getLast? = some m := by
      rw [← List.append_assoc]
      exact List.getLast?_concat (l := k :: l :: (te ++ [c, t]))
    refine .of_last (b := .array e (some t)) hlast rfl fun context as => ?_
    exact Step.reads (.array hk) (Step.reads (.expect hl) (State.reads_append (hexpr _) (Step.reads (.arrayComma hc)
      (Step.reads (.arrayLength ht) (Step.reads (.bodyEnd hm) rfl)))))

lemma struct_after (hn : Completes n) (hlen : ts.length ≤ n) (h : Derives [.terminal .struct, .terminal .leftBrace,
    .optional (memberList ++ [.optional [.terminal .comma]]), .terminal .rightBrace] ts os) :
    ReadsBody "struct_t" ts os := by
  simp only [derives_terminal] at h
  obtain ⟨k, _, _, rfl, rfl, hk, l, _, _, rfl, rfl, hl, h⟩ := h
  obtain h | ⟨us, us', vs, vs', rfl, rfl, hms, h⟩ := derives_optional.1 h
  · simp only [derives_terminal, derives_nil] at h
    obtain ⟨m, _, _, rfl, rfl, hm, rfl, rfl⟩ := h
    simp only [leaf, kept, hk, hl, hm]
    refine .of_last (b := .struct []) rfl rfl fun context as => ?_
    exact Step.reads (.struct hk) (Step.reads (.expect hl) (Step.reads (.noMember hm) rfl))
  · simp only [derives_terminal, derives_nil] at h
    obtain ⟨m, _, _, rfl, rfl, hm, rfl, rfl⟩ := h
    simp only [List.length_cons, List.length_append] at hlen
    obtain ⟨ms, rfl, hread⟩ := members_after hn (by omega) hms
    simp only [leaf, kept, hk, hl, hm]
    refine .of_last (b := .struct ms) (List.getLast?_concat (l := k :: l :: us)) ?_ fun context as => ?_
    · simp [Outline.ofBody]
    · exact Step.reads (.struct hk) (Step.reads (.expect hl) (hread _ m hm))

lemma body_after (hn : Completes n) (hlen : ts.length ≤ n) (h : Derives [.symbol .typeBody] ts os) :
    ∃ r b, os = [Outline.ofBody r b] ∧ ∀ (context : Context) as,
      (State.expression context as).after ts = some (context.resume (.mk as r b)) := by
  obtain ⟨p, hp, vs, hd, rfl⟩ := derives_symbol.1 h
  have hbody : ∃ label, p.label = some label ∧ ReadsBody label ts vs := by
    simp only [rules, List.mem_cons, List.not_mem_nil, or_false] at hp
    obtain rfl | rfl | rfl | rfl | rfl | rfl | rfl | rfl | rfl | rfl := hp
    · exact ⟨_, rfl, single_after (fun k r hk => by simp [leaf, kept, hk, Outline.ofBody]) (fun _ _ _ => .named) hd⟩
    · exact ⟨_, rfl, vector_after hd⟩
    · exact ⟨_, rfl, matrix_after hd⟩
    · exact ⟨_, rfl, bracketed_after hn hlen rfl (fun _ _ => rfl) (fun _ _ _ _ => rfl) (fun _ _ _ => .ptr) hd⟩
    · exact ⟨_, rfl, bracketed_after hn hlen rfl (fun _ _ => rfl) (fun _ _ _ _ => rfl) (fun _ _ _ => .valuePtr) hd⟩
    · exact ⟨_, rfl, array_after hn hlen hd⟩
    · exact ⟨_, rfl, struct_after hn hlen hd⟩
    · exact ⟨_, rfl, image_after hd⟩
    · exact ⟨_, rfl, single_after (fun k r hk => by simp [leaf, kept, hk, Outline.ofBody]) (fun _ _ _ => .sampler) hd⟩
    · refine ⟨_, rfl, single_after (fun k r hk => ?_) (fun _ _ _ => .samplerComparison) hd⟩
      simp [leaf, kept, hk, Outline.ofBody]
  obtain ⟨label, hl, r, b, hb, hr⟩ := hbody
  exact ⟨r, b, by rw [Production.tree, hl, ← hb], hr⟩

lemma expression_after (hn : Completes n) (hlen : ts.length ≤ n) (h : Derives [.symbol .typeExpr] ts os) :
    ∃ e, os = [Outline.ofExpr e] ∧
      ∀ context : Context, (State.expression context []).after ts = some (context.resume e) := by
  obtain ⟨p, hp, vs, hd, rfl⟩ := derives_symbol.1 h
  obtain rfl := List.mem_singleton.1 hp
  obtain ⟨ta, tb, oa, ob, rfl, rfl, ha, hb⟩ := derives_many_append hd
  rw [List.length_append] at hlen
  obtain ⟨as, rfl, has⟩ := attributes_after ha
  obtain ⟨r, b, rfl, hbody⟩ := body_after hn (by omega) hb
  refine ⟨.mk as r b, ?_, fun context => ?_⟩
  · rw [Production.tree, ← (expr_derives ha hb).region]
    rfl
  · have hattrs := has (.expression context [])
    rw [foldl_push_expression] at hattrs
    exact State.reads_append hattrs (hbody context as)

lemma completes (n : Nat) : Completes n := by
  induction n with
  | zero => exact fun ts os hlen => absurd hlen (Nat.not_lt_zero _)
  | succ n ih => exact fun ts os hlen h => expression_after ih (Nat.lt_succ_iff.1 hlen) h

end Expressions

section Items

variable {ts : List Token} {os : List Outline}

lemma literal_after (h : Derives [.symbol .literal] ts os) : ∃ l, os = [Outline.ofLiteral l] ∧
    ∀ done start name, (State.constValue done start name).after ts = some (.constEnd done start name l) := by
  obtain ⟨p, hp, vs, hd, rfl⟩ := derives_symbol.1 h
  simp only [rules, List.mem_cons, List.not_mem_nil, or_false] at hp
  obtain rfl | rfl | rfl | rfl := hp <;> simp only [derives_terminal, derives_nil] at hd <;>
    obtain ⟨t, _, _, rfl, rfl, ht, rfl, rfl⟩ := hd <;> simp only [leaf, kept, ht]
  · exact ⟨.integer t, rfl, fun done start name => Step.reads (.integer ht) rfl⟩
  · exact ⟨.float t, rfl, fun done start name => Step.reads (.float ht) rfl⟩
  · exact ⟨.boolean true t.region, rfl, fun done start name => Step.reads (.trueWord ht) rfl⟩
  · exact ⟨.boolean false t.region, rfl, fun done start name => Step.reads (.falseWord ht) rfl⟩

lemma definition_tree {label : String} {parts : List Form} {k name e m : Token} {o : Outline}
    (hk : kept k.terminal = false) (hn : kept name.terminal = true) (he : kept e.terminal = false)
    (hm : kept m.terminal = false) : Production.tree ⟨some label, parts⟩ (k :: name :: e :: (ts ++ [m]))
      (leaf k ++ (leaf name ++ (leaf e ++ ([o] ++ (leaf m ++ []))))) =
        [.rule label (some ⟨k.region.start, m.region.stop⟩) [.leaf name, o]] := by
  have hspan : spanOf (k :: name :: e :: (ts ++ [m])) = some ⟨k.region.start, m.region.stop⟩ :=
    spanOf_concat k m (name :: e :: ts)
  simp [Production.tree, hspan, leaf, hk, hn, he, hm]

lemma constDef_after (h : Derives [.symbol .constDef] ts os) : ∃ i, os = [Outline.ofItem i] ∧
    ∀ done, (State.items done).after ts = some (.items (i :: done)) := by
  obtain ⟨p, hp, vs, hd, rfl⟩ := derives_symbol.1 h
  obtain rfl := List.mem_singleton.1 hp
  simp only [derives_terminal] at hd
  obtain ⟨k, _, _, rfl, rfl, hk, name, _, _, rfl, rfl, hn, e, _, _, rfl, rfl, he, hrest⟩ := hd
  obtain ⟨tl, us, ol, vs, rfl, rfl, hl, hend⟩ := derives_symbol_cons.1 hrest
  simp only [derives_terminal, derives_nil] at hend
  obtain ⟨m, _, _, rfl, rfl, hm, rfl, rfl⟩ := hend
  obtain ⟨l, rfl, hread⟩ := literal_after hl
  refine ⟨.constant ⟨k.region.start, m.region.stop⟩ name l, ?_, fun done => ?_⟩
  · rw [definition_tree (by rw [hk]; rfl) (by rw [hn]; rfl) (by rw [he]; rfl) (by rw [hm]; rfl)]
    rfl
  · exact Step.reads (.const hk) (Step.reads (.constName hn) (Step.reads (.expect he)
      (State.reads_append (hread ..) (Step.reads (.constEnd hm) rfl))))

lemma typeDef_after (h : Derives [.symbol .typeDef] ts os) : ∃ i, os = [Outline.ofItem i] ∧
    ∀ done, (State.items done).after ts = some (.items (i :: done)) := by
  obtain ⟨p, hp, vs, hd, rfl⟩ := derives_symbol.1 h
  obtain rfl := List.mem_singleton.1 hp
  simp only [derives_terminal] at hd
  obtain ⟨k, _, _, rfl, rfl, hk, name, _, _, rfl, rfl, hn, e, _, _, rfl, rfl, he, hrest⟩ := hd
  obtain ⟨te, us, oe, vs, rfl, rfl, hexpr, hend⟩ := derives_symbol_cons.1 hrest
  simp only [derives_terminal, derives_nil] at hend
  obtain ⟨m, _, _, rfl, rfl, hm, rfl, rfl⟩ := hend
  obtain ⟨expr, rfl, hread⟩ := completes _ te oe (Nat.lt_succ_self _) hexpr
  refine ⟨.type ⟨k.region.start, m.region.stop⟩ name expr, ?_, fun done => ?_⟩
  · rw [definition_tree (by rw [hk]; rfl) (by rw [hn]; rfl) (by rw [he]; rfl) (by rw [hm]; rfl)]
    rfl
  · exact Step.reads (.type hk) (Step.reads (.typeName hn) (Step.reads (.expect he)
      (State.reads_append (hread _) (Step.reads (.typeEnd hm) rfl))))

lemma item_after (h : Derives [.symbol .item] ts os) : ∃ i, os = [Outline.ofItem i] ∧
    ∀ done, (State.items done).after ts = some (.items (i :: done)) := by
  obtain ⟨p, hp, vs, hd, rfl⟩ := derives_symbol.1 h
  simp only [rules, List.mem_cons, List.not_mem_nil, or_false] at hp
  obtain rfl | rfl := hp
  · exact constDef_after hd
  · exact typeDef_after hd

lemma after_of_sentence {o : Outline} (h : Sentence ts o) :
    ∃ done, (State.items []).after ts = some (.items done) ∧ Outline.ofItems done.reverse = o := by
  obtain ⟨p, hp, vs, hd, ho⟩ := derives_symbol.1 h
  obtain rfl := List.mem_singleton.1 hp
  obtain ⟨items, rfl, hread⟩ := many_after State.items (fun done i => i :: done) (fun _ _ _ => item_after)
    (Nat.lt_succ_self _) hd
  have hdone := hread []
  rw [List.foldl_flip_cons_eq_append', List.append_nil] at hdone
  refine ⟨items.reverse, hdone, ?_⟩
  rw [Production.tree, regionOf_items hd] at ho
  rw [List.reverse_reverse]
  exact (List.singleton_inj.1 ho).symm

end Items

end ShaderLayout.Description
