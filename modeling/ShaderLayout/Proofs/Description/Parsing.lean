import ShaderLayout.Proofs.Description.Accepting
import ShaderLayout.Proofs.Description.Lexical

namespace ShaderLayout.Description

open Grammar

section Sentences

variable {ts us : List Token} {t : Token} {s : State} {o o' : Outline}

lemma sentence_iff : Sentence ts o ↔
    ∃ done, (State.items []).after ts = some (.items done) ∧ Outline.ofItems done.reverse = o := by
  refine ⟨after_of_sentence, ?_⟩
  rintro ⟨done, h, rfl⟩
  exact sentence_of_after h

lemma sentence_unique (h : Sentence ts o) (h' : Sentence ts o') : o = o' := by
  obtain ⟨done, hd, rfl⟩ := sentence_iff.1 h
  obtain ⟨done', hd', rfl⟩ := sentence_iff.1 h'
  rw [hd] at hd'
  cases hd'
  rfl

lemma State.after_prefix {s₀ : State} (h : s₀.after (ts ++ us) = some s) : ∃ s', s₀.after ts = some s' := by
  rw [State.after_append, Option.bind_eq_some_iff] at h
  obtain ⟨s', hs', -⟩ := h
  exact ⟨s', hs'⟩

lemma viable_iff : Viable ts ↔ ∃ s, (State.items []).after ts = some s := by
  constructor
  · rintro ⟨us, o, h⟩
    obtain ⟨done, hd, -⟩ := after_of_sentence h
    exact State.after_prefix hd
  · rintro ⟨s, h⟩
    obtain ⟨us, done, hd⟩ := s.live
    exact ⟨us, _, sentence_of_after ((State.after_of_append h us).trans hd)⟩

lemma viable_concat_iff (h : (State.items []).after us = some s) :
    Viable (us ++ [t]) ↔ ∃ c, Step t s c := by
  rw [viable_iff, State.after_of_append h]
  constructor
  · rintro ⟨s', hs⟩
    rw [State.after_cons, Option.bind_eq_some_iff] at hs
    obtain ⟨c, hc, -⟩ := hs
    exact ⟨c, step_of_advance hc⟩
  · rintro ⟨c, hc⟩
    exact ⟨c.state, State.after_of_step hc []⟩

lemma allowed_of_legal {k : Terminal} (h : (State.items []).after us = some s) (hk : Legal us k) : k ∈ s.allowed := by
  obtain ⟨rfl, o, ho⟩ | ⟨t, rfl, ht⟩ := hk
  · obtain ⟨done, hd, -⟩ := after_of_sentence ho
    rw [h] at hd
    cases hd
    exact List.mem_cons_self
  · obtain ⟨c, hc⟩ := (viable_concat_iff h).1 ht
    exact hc.allowed

end Sentences

section Outcomes

variable {source : String} {ts us : List Token} {rest : List Char} {q : Position} {s : State}

lemma initial_wide : Configuration.initial.Wide := List.Subset.refl _

lemma parse_after (h : (State.items []).after us = some s) (hsplit : Splits .origin source.toList us rest q) :
    ∃ d : Configuration, d.Wide ∧ d.state = s ∧
      parse source = run d (lastStart .origin us) (tokens q rest).1 (tokens q rest).2 := by
  obtain ⟨d, hd, hs, hrun⟩ := run_after initial_wide h .origin (tokens q rest).1 (tokens q rest).2
  exact ⟨d, hd, hs, by rw [parse, hsplit.tokens]; exact hrun⟩

lemma parse_finished {done : List Item} (h : (State.items []).after ts = some (.items done))
    (hsplit : Splits .origin source.toList ts [] q) : parse source = .ok done.reverse := by
  obtain ⟨d, -, hs, hrun⟩ := parse_after h hsplit
  rw [hrun, tokens_nil, run, Configuration.finish?, hs]

lemma parse_unfinished (h : (State.items []).after ts = some s) (hs : ∀ done, s ≠ .items done)
    (hsplit : Splits .origin source.toList ts [] q) :
    parse source = .error (.unexpectedEnd (lastStart .origin ts)) := by
  obtain ⟨d, -, rfl, hrun⟩ := parse_after h hsplit
  have hfinish : d.finish? = none := by
    rw [Configuration.finish?]
    split
    · next done hd => exact absurd hd (hs done)
    · rfl
  rw [hrun, tokens_nil, run, hfinish]

lemma parse_stray {c : Char} (h : (State.items []).after ts = some s)
    (hsplit : Splits .origin source.toList ts (c :: rest) q) (hstuck : Stuck (c :: rest)) :
    parse source = .error (.strayCharacter c q) := by
  obtain ⟨d, -, -, hrun⟩ := parse_after h hsplit
  rw [hrun, tokens_stuck hstuck, run]

lemma parse_refused {t : Token} (h : (State.items []).after us = some s) (ht : s.advance t = none)
    (hsplit : Splits .origin source.toList (us ++ [t]) rest q) :
    ∃ expected, s.allowed ⊆ expected ∧ parse source = .error (.unexpectedToken t expected) := by
  obtain ⟨d, hd, rfl, hrun⟩ := run_after initial_wide h .origin (t :: (tokens q rest).1) (tokens q rest).2
  obtain ⟨expected, hsub, hstop⟩ := run_refused hd ht (lastStart .origin us) (tokens q rest).1 (tokens q rest).2
  refine ⟨expected, hsub, ?_⟩
  rw [parse, hsplit.tokens, ← hstop, ← hrun, List.append_assoc]
  rfl

inductive ParseOutcome (source : String) : Except Fault (List Item) → Prop
  | finished {ts : List Token} {q : Position} {done : List Item} (hsplit : Splits .origin source.toList ts [] q)
      (h : (State.items []).after ts = some (.items done)) : ParseOutcome source (.ok done.reverse)
  | unfinished {ts : List Token} {q : Position} {s : State} (hsplit : Splits .origin source.toList ts [] q)
      (h : (State.items []).after ts = some s) (hs : ∀ done, s ≠ .items done) :
      ParseOutcome source (.error (.unexpectedEnd (lastStart .origin ts)))
  | stray {ts : List Token} {q : Position} {s : State} {c : Char} {rest : List Char}
      (hsplit : Splits .origin source.toList ts (c :: rest) q) (hstuck : Stuck (c :: rest))
      (h : (State.items []).after ts = some s) : ParseOutcome source (.error (.strayCharacter c q))
  | refused {us : List Token} {t : Token} {q : Position} {s : State} {rest : List Char} {expected : List Terminal}
      (hsplit : Splits .origin source.toList (us ++ [t]) rest q) (h : (State.items []).after us = some s)
      (ht : s.advance t = none) : ParseOutcome source (.error (.unexpectedToken t expected))

lemma parse_outcome (source : String) : ParseOutcome source (parse source) := by
  obtain ⟨rest, q, hsplit, hend⟩ := splits_tokens .origin source.toList
  obtain ⟨s, h⟩ | ⟨us, t, vs, s, hts, h, ht⟩ := (State.items []).after_cases (tokens .origin source.toList).1
  · obtain ⟨rfl, -⟩ | ⟨c, r, rfl, hstuck, -⟩ := hend
    · by_cases hs : ∃ done, s = .items done
      · obtain ⟨done, rfl⟩ := hs
        rw [parse_finished h hsplit]
        exact .finished hsplit h
      · rw [parse_unfinished h (not_exists.1 hs) hsplit]
        exact .unfinished hsplit h (not_exists.1 hs)
    · rw [parse_stray h hsplit hstuck]
      exact .stray hsplit hstuck h
  · rw [hts, ← List.singleton_append, ← List.append_assoc] at hsplit
    obtain ⟨rest', q', hbefore⟩ := hsplit.before
    obtain ⟨expected, -, hp⟩ := parse_refused h ht hbefore
    rw [hp]
    exact .refused hbefore h ht

end Outcomes

section Exactness

variable {source : String}

lemma parse_ok_iff {o : Outline} : (∃ items, parse source = .ok items ∧ Outline.ofItems items = o) ↔
    ∃ ts q, Splits .origin source.toList ts [] q ∧ Sentence ts o := by
  constructor
  · rintro ⟨items, hp, rfl⟩
    have ho := hp ▸ parse_outcome source
    cases ho with
    | finished hsplit h => exact ⟨_, _, hsplit, sentence_of_after h⟩
  · rintro ⟨ts, q, hsplit, ho⟩
    obtain ⟨done, h, rfl⟩ := after_of_sentence ho
    exact ⟨_, parse_finished h hsplit, rfl⟩

lemma refused_of_not_viable {us : List Token} {t : Token} (hu : Viable us) (ht : ¬ Viable (us ++ [t])) :
    ∃ s, (State.items []).after us = some s ∧ s.advance t = none := by
  obtain ⟨s, h⟩ := viable_iff.1 hu
  refine ⟨s, h, Option.eq_none_iff_forall_ne_some.2 fun c hc => ht ?_⟩
  exact (viable_concat_iff h).2 ⟨c, step_of_advance hc⟩

lemma parse_unexpectedToken_iff {t : Token} : (∃ expected, parse source = .error (.unexpectedToken t expected)) ↔
    ∃ us rest q, Splits .origin source.toList (us ++ [t]) rest q ∧ Viable us ∧ ¬ Viable (us ++ [t]) := by
  constructor
  · rintro ⟨expected, hp⟩
    have ho := hp ▸ parse_outcome source
    cases ho with
    | refused hsplit h ht =>
      refine ⟨_, _, _, hsplit, viable_iff.2 ⟨_, h⟩, fun hv => ?_⟩
      obtain ⟨c, hc⟩ := (viable_concat_iff h).1 hv
      rw [hc.advance] at ht
      cases ht
  · rintro ⟨us, rest, q, hsplit, hu, ht⟩
    obtain ⟨s, h, hs⟩ := refused_of_not_viable hu ht
    obtain ⟨expected, -, hp⟩ := parse_refused h hs hsplit
    exact ⟨expected, hp⟩

lemma parse_strayCharacter_iff {c : Char} {p : Position} : parse source = .error (.strayCharacter c p) ↔
    ∃ ts rest, Splits .origin source.toList ts (c :: rest) p ∧ Stuck (c :: rest) ∧ Viable ts := by
  constructor
  · intro hp
    have ho := hp ▸ parse_outcome source
    cases ho with
    | stray hsplit hstuck h => exact ⟨_, _, hsplit, hstuck, viable_iff.2 ⟨_, h⟩⟩
  · rintro ⟨ts, rest, hsplit, hstuck, hv⟩
    obtain ⟨s, h⟩ := viable_iff.1 hv
    exact parse_stray h hsplit hstuck

lemma parse_unexpectedEnd_iff {p : Position} : parse source = .error (.unexpectedEnd p) ↔
    ∃ ts q, Splits .origin source.toList ts [] q ∧ Viable ts ∧ (¬ ∃ o, Sentence ts o) ∧ p = lastStart .origin ts := by
  constructor
  · intro hp
    have ho := hp ▸ parse_outcome source
    cases ho with
    | unfinished hsplit h hs =>
      refine ⟨_, _, hsplit, viable_iff.2 ⟨_, h⟩, ?_, rfl⟩
      rintro ⟨o, ho⟩
      obtain ⟨done, hd, -⟩ := after_of_sentence ho
      exact hs done (Option.some.inj (h.symm.trans hd))
  · rintro ⟨ts, q, hsplit, hv, hno, rfl⟩
    obtain ⟨s, h⟩ := viable_iff.1 hv
    refine parse_unfinished h ?_ hsplit
    rintro done rfl
    exact hno ⟨_, sentence_of_after h⟩

lemma expected_of_legal {us : List Token} {t : Token} {expected : List Terminal} {rest : List Char} {q : Position}
    {k : Terminal} (hp : parse source = .error (.unexpectedToken t expected))
    (hsplit : Splits .origin source.toList (us ++ [t]) rest q) (hu : Viable us) (ht : ¬ Viable (us ++ [t]))
    (hk : Legal us k) : k ∈ expected := by
  obtain ⟨s, h, hs⟩ := refused_of_not_viable hu ht
  obtain ⟨expected', hsub, hp'⟩ := parse_refused h hs hsplit
  rw [hp] at hp'
  cases hp'
  exact hsub (allowed_of_legal h hk)

/-- A text is read as the tree of the sentence that it is, and of no other; otherwise reading stops at the first
token, character or end with which no sentence starts, and names all that could have stood there. -/
theorem parse_exact (source : String) :
    (∀ o, (∃ items, parse source = .ok items ∧ Outline.ofItems items = o) ↔
      ∃ ts q, Splits .origin source.toList ts [] q ∧ Sentence ts o) ∧
    (∀ ts o o', Sentence ts o → Sentence ts o' → o = o') ∧
    (∀ t, (∃ expected, parse source = .error (.unexpectedToken t expected)) ↔
      ∃ us rest q, Splits .origin source.toList (us ++ [t]) rest q ∧ Viable us ∧ ¬ Viable (us ++ [t])) ∧
    (∀ c p, parse source = .error (.strayCharacter c p) ↔
      ∃ ts rest, Splits .origin source.toList ts (c :: rest) p ∧ Stuck (c :: rest) ∧ Viable ts) ∧
    (∀ p, parse source = .error (.unexpectedEnd p) ↔ ∃ ts q, Splits .origin source.toList ts [] q ∧ Viable ts ∧
      (¬ ∃ o, Sentence ts o) ∧ p = lastStart .origin ts) ∧
    ∀ t expected us rest q, parse source = .error (.unexpectedToken t expected) →
      Splits .origin source.toList (us ++ [t]) rest q → Viable us → ¬ Viable (us ++ [t]) →
        ∀ k, Legal us k → k ∈ expected :=
  ⟨fun _ => parse_ok_iff, fun _ _ _ => sentence_unique, fun _ => parse_unexpectedToken_iff,
    fun _ _ => parse_strayCharacter_iff, fun _ => parse_unexpectedEnd_iff,
    fun _ _ _ _ _ hp hsplit hu ht _ => expected_of_legal hp hsplit hu ht⟩

theorem parse_exact_const :
    (∃ ts q o, Splits .origin "const N = 4;".toList ts [] q ∧ Sentence ts o ∧ ∀ o', Sentence ts o' → o' = o) ∧
      ∃ us t rest q, Splits .origin "const N 4;".toList (us ++ [t]) rest q ∧ t.text = "4" ∧ Viable us ∧
        ¬ Viable (us ++ [t]) ∧ ∀ k, Legal us k → k = .equal := by
  constructor
  · have hp : (parse "const N = 4;").isOk = true := by decide +kernel
    cases hr : parse "const N = 4;" with
    | error fault => rw [hr] at hp; cases hp
    | ok items =>
      obtain ⟨ts, q, hsplit, ho⟩ := ((parse_exact "const N = 4;").1 _).1 ⟨items, hr, rfl⟩
      exact ⟨ts, q, _, hsplit, ho, fun o' ho' => (parse_exact "const N = 4;").2.1 ts o' _ ho' ho⟩
  · have hp : (match parse "const N 4;" with
        | .error (.unexpectedToken t expected) => t.text == "4" && expected == [.equal]
        | _ => false) = true := by decide +kernel
    split at hp
    · next t expected hr =>
      rw [Bool.and_eq_true, beq_iff_eq, beq_iff_eq] at hp
      obtain ⟨htext, rfl⟩ := hp
      obtain ⟨us, rest, q, hsplit, hu, ht⟩ := ((parse_exact "const N 4;").2.2.1 t).1 ⟨_, hr⟩
      refine ⟨us, t, rest, q, hsplit, htext, hu, ht, fun k hk => ?_⟩
      exact List.mem_singleton.1 ((parse_exact "const N 4;").2.2.2.2.2 t _ us rest q hr hsplit hu ht k hk)
    · cases hp

end Exactness

end ShaderLayout.Description
