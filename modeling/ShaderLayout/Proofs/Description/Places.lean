import ShaderLayout.Proofs.Description.Lexical

/-!
Places in a text. A place tells how many lines end before it and how many characters stand after the last of these
ends, so that in one text it is left only once. Hence the regions of tokens delimit their texts and nothing else.
-/

namespace ShaderLayout.Description

section Places

instance : LinearOrder Position :=
  LinearOrder.lift' (fun p => toLex (p.line, p.col)) fun p q h => by
    cases p
    cases q
    simpa using h

lemma Position.lt_iff {p q : Position} : p < q ↔ p.line < q.line ∨ p.line = q.line ∧ p.col < q.col :=
  Prod.Lex.lt_iff

def place (before : List Char) : Position :=
  ⟨before.count '\n' + 1, (before.reverse.takeWhile (· ≠ '\n')).length + 1⟩

lemma origin_after (s : List Char) : Position.origin.after s = place s := by
  induction s using List.reverseRecOn with
  | nil => rfl
  | append_singleton s c ih =>
    rw [Position.after_append, ih]
    change (place s).step c = place (s ++ [c])
    by_cases hc : c = '\n'
    · simp [Position.step, place, hc]
    · simp [Position.step, place, hc]

variable {p : Position} {s t : List Char}

lemma Position.lt_step (p : Position) (c : Char) : p < p.step c := by
  rw [Position.lt_iff, Position.step]
  split
  · exact .inl (Nat.lt_succ_self _)
  · exact .inr ⟨rfl, Nat.lt_succ_self _⟩

lemma Position.le_after (p : Position) (s : List Char) : p ≤ p.after s := by
  induction s generalizing p with
  | nil => exact le_rfl
  | cons c s ih => exact (p.lt_step c).le.trans (ih (p.step c))

lemma Position.lt_after (p : Position) (hs : s ≠ []) : p < p.after s := by
  obtain ⟨c, s, rfl⟩ := List.exists_cons_of_ne_nil hs
  exact (p.lt_step c).trans_le (Position.le_after (p.step c) s)

lemma place_append (s t : List Char) : place (s ++ t) = (place s).after t := by
  rw [← origin_after, ← origin_after, Position.after_append]

lemma eq_of_place_eq {u : List Char} (hs : s <+: u) (ht : t <+: u) (h : place s = place t) : s = t := by
  wlog hle : s.length ≤ t.length generalizing s t
  · exact (this ht hs h.symm (Nat.le_of_not_le hle)).symm
  obtain ⟨r, rfl⟩ := List.prefix_of_prefix_length_le hs ht hle
  by_contra hne
  have hr : r ≠ [] := by
    rintro rfl
    exact hne (List.append_nil s).symm
  rw [place_append] at h
  exact ((place s).lt_after hr).ne h

def Delimits (s : List Char) (r : Region) (t : List Char) : Prop :=
  ∃ before after, s = before ++ t ++ after ∧ r = ⟨place before, place (before ++ t)⟩

lemma Delimits.unique {u : List Char} {r : Region} (hs : Delimits u r s) (ht : Delimits u r t) : s = t := by
  obtain ⟨before, after, rfl, rfl⟩ := hs
  obtain ⟨before', after', hu, hr⟩ := ht
  obtain ⟨hstart, hstop⟩ := Region.mk.injEq .. ▸ hr
  have hb : before = before' := eq_of_place_eq ⟨s ++ after, (List.append_assoc ..).symm⟩
    (hu ▸ ⟨t ++ after', (List.append_assoc ..).symm⟩) hstart
  subst hb
  exact List.append_cancel_left (eq_of_place_eq ⟨after, rfl⟩ (hu ▸ ⟨after', rfl⟩) hstop)

end Places

section Splitting

variable {p q : Position} {s rest : List Char} {ts : List Token}

def Skipped (s : List Char) : Prop := ∃ pieces : List (List Char), s = pieces.flatten ∧ ∀ t ∈ pieces, Spells none t

lemma Skipped.nil : Skipped [] := ⟨[], rfl, by simp⟩

lemma Skipped.append {s t : List Char} (hs : Spells none s) (ht : Skipped t) : Skipped (s ++ t) := by
  obtain ⟨pieces, rfl, hp⟩ := ht
  exact ⟨s :: pieces, rfl, List.forall_mem_cons.2 ⟨hs, hp⟩⟩

lemma Splits.stops (h : Splits p s ts rest q) : ∃ t, s = t ++ rest ∧ q = p.after t := by
  induction h with
  | here => exact ⟨[], rfl, rfl⟩
  | @token _ _ _ t _ _ _ _ h _ ih =>
    obtain ⟨u, hu, rfl⟩ := ih
    exact ⟨t ++ u, by rw [List.append_assoc, ← hu, h.split], (Position.after_append ..).symm⟩
  | @skip _ _ _ t _ _ _ h _ ih =>
    obtain ⟨u, hu, rfl⟩ := ih
    exact ⟨t ++ u, by rw [List.append_assoc, ← hu, h.split], (Position.after_append ..).symm⟩

lemma Splits.spelled (h : Splits p s ts rest q) : ∀ t ∈ ts, Spells (some t.terminal) t.text.toList := by
  induction h with
  | here => simp
  | token h _ ih => exact List.forall_mem_cons.2 ⟨String.toList_ofList ▸ h.spelled, ih⟩
  | skip _ _ ih => exact ih

lemma Splits.ordered (h : Splits p s ts rest q) :
    (∀ t ∈ ts, p ≤ t.region.start ∧ t.region.start < t.region.stop) ∧
      ts.Pairwise fun a b => a.region.stop ≤ b.region.start := by
  induction h with
  | here => simp
  | @token p _ _ t _ _ _ _ h _ ih =>
    refine ⟨List.forall_mem_cons.2 ⟨⟨le_rfl, p.lt_after h.spelled.ne_nil⟩, fun u hu => ?_⟩, ?_⟩
    · exact ⟨(p.le_after t).trans (ih.1 u hu).1, (ih.1 u hu).2⟩
    · exact List.pairwise_cons.2 ⟨fun u hu => (ih.1 u hu).1, ih.2⟩
  | @skip p _ _ t _ _ _ _ _ ih =>
    exact ⟨fun u hu => ⟨(p.le_after t).trans (ih.1 u hu).1, (ih.1 u hu).2⟩, ih.2⟩

lemma Splits.delimits (before : List Char) (h : Splits (place before) s ts rest q) :
    ∀ t ∈ ts, Delimits (before ++ s) t.region t.text.toList := by
  generalize hp : place before = p at h
  induction h generalizing before with
  | here => simp
  | @token p _ s t rest _ _ _ h _ ih =>
    subst hp
    rw [← h.split]
    refine List.forall_mem_cons.2 ⟨⟨before, rest, ?_, ?_⟩, ?_⟩
    · simp
    · simp [place_append]
    · simpa using ih _ (place_append before t)
  | @skip p _ s t rest _ _ h _ ih =>
    subst hp
    rw [← h.split]
    simpa using ih _ (place_append before t)

lemma Splits.woven (h : Splits p s ts [] q) : ∃ first, ∃ rest : List (Token × List Char),
    rest.map Prod.fst = ts ∧ Skipped first ∧ (∀ e ∈ rest, Skipped e.2) ∧
      s = first ++ rest.flatMap fun e => e.1.text.toList ++ e.2 := by
  generalize hr : [] = r at h
  induction h with
  | here =>
    subst hr
    exact ⟨[], [], rfl, .nil, by simp, rfl⟩
  | token h _ ih =>
    obtain ⟨first, rest, rfl, hfirst, hrest, rfl⟩ := ih hr
    refine ⟨[], (_, first) :: rest, rfl, .nil, List.forall_mem_cons.2 ⟨hfirst, hrest⟩, ?_⟩
    simp [← h.split]
  | skip h _ ih =>
    obtain ⟨first, rest, rfl, hfirst, hrest, rfl⟩ := ih hr
    exact ⟨_, rest, rfl, .append h.spelled hfirst, hrest, by simp [← h.split]⟩

end Splitting

end ShaderLayout.Description
