import ShaderLayout.Proofs.Description.Simulation

namespace ShaderLayout.Description

open Number Layout

namespace Attribute

variable {allowed : List AttributeKind} {target : String} {accepted : Accepted}

lemma judgeAll_given (as : List Attribute) (h : (judgeAll allowed target accepted as).2 = [])
    (kind : AttributeKind) :
    (judgeAll allowed target accepted as).1.lookup kind = (accepted.lookup kind).or (given? kind as) := by
  induction as generalizing accepted with
  | nil => simp [judgeAll, given?]
  | cons a rest ih =>
    rw [judgeAll] at h ⊢
    cases hj : judge allowed target accepted a with
    | error p => rw [hj] at h; cases h
    | ok e =>
      rw [hj] at h
      obtain ⟨hk, hn, hv⟩ := judge_eq_ok hj
      obtain ⟨hv, _⟩ := value?_eq_ok hv
      simp only
      rw [ih h, List.lookup_append, Option.or_assoc]
      by_cases hkind : kind = e.1
      · simp [hkind, given?, hk, hn, hv, List.lookup]
      · have hne : ¬ e.1 = kind := fun he => hkind he.symm
        simp [given?, hk, hne, List.lookup, beq_eq_false_iff_ne.mpr hkind]

end Attribute

section Primitive

variable {env : Env}

lemma attributes_given (s : Progress) (allowed : List AttributeKind) (target : String) (as : List Attribute) :
    Ends (Build.attributes allowed target as) s fun r s' => s'.table = s.table ∧
      ∀ accepted, r = some accepted → ∀ kind, accepted.lookup kind = Attribute.given? kind as := by
  refine ⟨rfl, fun accepted h kind => ?_⟩
  change (if _ then some (Attribute.judgeAll allowed target [] as).1 else none) = _ at h
  split at h
  · next he =>
    cases h
    rw [Attribute.judgeAll_given as he]
    rfl
  · cases h

lemma placeType_follows (s : Progress) (shape : Shape) (name : Option String) :
    Ends (Build.placeType shape name) s fun h s' => Adds s s' ∧ ∀ env ls o, Settled env s.table ls →
      (∀ h, Agrees (ofShape ls s.table.constants h shape) o) →
      Verdict env s'.table ls (fun ls' => Denotes s'.table.types ls' h ⟨checked o, shape.scalar?⟩)
        (cause? (checked o)) := by
  apply (placeType_ends s shape name).mono
  rintro h s' (⟨hh, rfl⟩ | ⟨rfl, rfl⟩)
  -- A shared entry was laid out over fewer layouts, which the rules do not notice.
  · refine ⟨.refl s', fun env ls o hs ho => ?_⟩
    have hof : Agrees (ofType ls s'.table.constants h ⟨shape, none⟩) (checked o) := (ho h).ofType
    obtain ⟨l, hl, ha⟩ := hs.laid.accepts_full hh
    rw [ha.ofType] at hof
    generalize checked o = o' at hof ⊢
    cases hof
    exact .settled (Keeps.refl ls) hs ⟨hh, hl⟩
  · have hadds := adds_type s ⟨shape, name⟩
    refine ⟨hadds, fun env ls o hs ho => ?_⟩
    have hsize := hs.laid.size_eq
    have hp := hs.laid.mono hadds.types hadds.constants
    have hnext := Arena.get?_append_next s.table.types ⟨shape, name⟩
    have hof : Agrees (ofType ls s.table.constants s.table.types.next ⟨shape, name⟩) (checked o) :=
      (ho _).ofType
    generalize checked o = o' at hof ⊢
    cases hres : ofType ls s.table.constants s.table.types.next ⟨shape, name⟩ with
    | ok l =>
      rw [hres] at hof
      cases hof
      have hp' := hp.push hnext (ofType_eq_ok_iff.mp hres)
      have hk := Keeps.push ls l
      have hl : (ls.push l)[s.table.types.next.index]? = some l := by
        simp [Arena.next, ← hsize]
      refine .settled hk (hs.grow hadds hk ?_) (@Denotes.intro _ _ _ ⟨shape, name⟩ l hnext hl)
      exact Arena.size_append s.table.types ⟨shape, name⟩ ▸ hp'
    | error e =>
      rw [hres] at hof
      cases hof with
      | error he => exact .broken ⟨hp, _, hnext, ofType_eq_error_iff.mp hres⟩ he

def Shapes (o : Outcome) (shape : Shape) (t : Table) (ls : Layouts) : Prop :=
  shape.scalar? = none ∧ ∀ h, Agrees (ofShape ls t.constants h shape) o

lemma placing_follows {s : Progress} {m : Build (Option Shape)} {c : Option Cause} {o : Outcome}
    (hm : Ends m s (Follows env c (Shapes o) s)) (name : Option String) :
    Ends (Build.placing name m) s
      (Follows env (c.or (cause? (checked o))) (fun h t ls => Denotes t.types ls h (.of o)) s) := by
  refine hm.bind fun r s₁ h => ?_
  cases r with
  | none => exact Ends.pure Follows.none
  | some shape =>
    refine (placeType_follows s₁ shape name).bind fun k s₂ hk => Ends.pure ?_
    obtain ⟨ha, hk⟩ := hk
    rintro _ ls ⟨⟩ hs
    apply (h shape ls rfl hs).later ha.types ha.constants
    rintro ls' hs' ⟨hn, ho⟩
    have := hk env ls' o hs' ho
    rwa [hn] at this

end Primitive

section Leaf

variable (env : Env) (s : Progress)

lemma checked_scalar {c : Scalar} (h : c.Plain) :
    checked (.ok ⟨c.width, c.width⟩) = .ok ⟨c.width, c.width⟩ := by
  have hw : c.width ≠ 0 ∧ ¬ 2 ^ 32 - 1 < c.width := by
    have := h.1
    simp only [List.mem_cons, List.not_mem_nil, or_false] at this
    omega
  change (if _ then _ else if _ then _ else _) = _
  rw [if_neg hw.1, if_neg hw.2]

lemma resolveType_follows (name : Token) : Ends (Build.resolveType name) s
    (Follows env none (fun h t ls => Denotes t.types ls h (env.meaning name.text)) s) := by
  apply Ends.getTable
  split
  · next h hl =>
    apply Ends.pure
    rintro _ ls ⟨⟩ hs
    obtain ⟨m, hm, hd⟩ := option_rel_some (hl ▸ hs.types name.text)
    have he : env.meaning name.text = m := by simp [Env.meaning, hm]
    exact .settled (Keeps.refl ls) hs (he ▸ hd)
  · next c hl hp =>
    refine (placeType_follows s (.scalar c) none).bind fun h s' hh => Ends.pure ?_
    rintro _ ls ⟨⟩ hs
    have hm := option_rel_none (hl ▸ hs.types name.text)
    have he : env.meaning name.text = ⟨.ok ⟨c.width, c.width⟩, some c⟩ := by simp [Env.meaning, hm, hp]
    have hv := hh.2 env ls (.ok ⟨c.width, c.width⟩) hs fun _ => .ok _
    rw [checked_scalar (predeclared_plain hp)] at hv
    rw [he]
    exact hv
  · split
    · exact Ends.fail Follows.none
    · exact Ends.fail Follows.none

lemma component_follows (name : Token) : Ends (Build.component name) s
    (Follows env none (fun c _ _ => env.component name = .ok c) s) := by
  refine (resolveType_follows env s name).bind fun r s' hr => ?_
  cases r with
  | none => exact Ends.pure Follows.none
  | some h =>
    apply Ends.getTable
    split
    · next c hc =>
      apply Ends.pure
      rintro _ ls ⟨⟩ hs
      apply (hr h ls rfl hs).imp
      intro ls' _ hd
      rw [Env.component]
      generalize env.meaning name.text = m at hd
      obtain ⟨ht, _⟩ := hd
      rw [ht] at hc
      simp only [Option.map_some, Option.some.injEq] at hc
      simp [hc, Shape.scalar?]
    · exact Ends.fail Follows.none

lemma vectorSize_ends (what : String) (t : Token) : Ends (Build.vectorSize what t) s fun r s' =>
    ∀ n, r = some n → s' = s ∧ sides t = .ok n := by
  rw [Build.vectorSize]
  split
  · next n hn =>
    apply Ends.pure
    rintro _ ⟨⟩
    exact ⟨rfl, by simp [sides, hn]⟩
  · exact Ends.fail (by simp)

lemma vector_follows (size name : Token) : Ends (Build.vector size name) s
    (Follows env none (Shapes do
      let n ← sides size
      let c ← env.component name
      return ⟨n.toNat * c.width, n.slots * c.width⟩) s) := by
  refine (vectorSize_ends s "vector" size).bind fun n s₁ hn => ?_
  refine (component_follows env s₁ name).bind fun c s₂ hc => Ends.pure ?_
  intro shape ls hshape hs
  cases n with
  | none => cases hshape
  | some n =>
    cases c with
    | none => cases hshape
    | some c =>
      cases hshape
      obtain ⟨rfl, hn'⟩ := hn n rfl
      apply (hc c ls rfl hs).imp
      intro ls' _ hc'
      rw [hn', hc']
      exact ⟨rfl, fun h => .ok _⟩

lemma matrix_follows (columns rows name : Token) : Ends (Build.matrix columns rows name) s
    (Follows env none (Shapes do
      let n ← sides columns
      let m ← sides rows
      let c ← env.component name
      return ⟨n.toNat * m.toNat * c.width, m.slots * c.width⟩) s) := by
  refine (vectorSize_ends s "matrix" columns).bind fun n s₁ hn => ?_
  refine (vectorSize_ends s₁ "matrix" rows).bind fun m s₂ hm => ?_
  refine (component_follows env s₂ name).bind fun c s₃ hc => ?_
  cases c with
  | none => exact Ends.pure Follows.none
  | some c =>
    simp only
    split
    · apply Ends.pure
      intro shape ls hshape hs
      cases n with
      | none => cases hshape
      | some n =>
        cases m with
        | none => cases hshape
        | some m =>
          cases hshape
          obtain ⟨rfl, hn'⟩ := hn n rfl
          obtain ⟨rfl, hm'⟩ := hm m rfl
          apply (hc c ls rfl hs).imp
          intro ls' _ hc'
          rw [hn', hm', hc']
          exact ⟨rfl, fun h => .ok _⟩
    · exact Ends.fail Follows.none

lemma valuePointer_ends (region : Region) (r : Option Handle) :
    Ends (Build.valuePointer region r) s fun r' s' => ∀ shape, r' = some shape →
      s' = s ∧ (∃ h, r = some h) ∧ ∃ n c, shape = .valuePointer n c := by
  cases r with
  | none => exact Ends.pure (by simp)
  | some h =>
    apply Ends.getTable
    split
    · next c _ _ =>
      apply Ends.pure
      rintro _ ⟨⟩
      exact ⟨rfl, ⟨h, rfl⟩, none, c, rfl⟩
    · next n c _ _ =>
      apply Ends.pure
      rintro _ ⟨⟩
      exact ⟨rfl, ⟨h, rfl⟩, some n, c, rfl⟩
    · exact Ends.fail (by simp)
    · exact Ends.pure (by simp)

lemma integer?_of_beq {v w : ConstantValue} (h : (v == w) = true) : v.integer? = w.integer? := by
  cases v with
  | composite => cases w with
    | composite => rfl
    | scalar => cases h
  | scalar n x => cases w with
    | composite => cases h
    | scalar m y =>
      have hxy : (x == y) = true := (Bool.and_eq_true_iff.mp h).2
      -- Floats are compared as numbers, but no float is an integer.
      cases x <;> cases y <;> first | rfl | cases hxy | exact congrArg some (of_decide_eq_true hxy)

lemma integer?_lengthValue (n : Int) (suffix : Numeral.Suffix) (width : Int) :
    ConstantValue.integer? (.scalar width (Build.lengthValue n suffix)) = some n := by
  rw [Build.lengthValue]
  split <;> rfl

lemma DenotesLength.agrees {constants : Arena Constant} {c h : Handle} {n : Option Int}
    (hd : DenotesLength constants c n) :
    Agrees (arrayCount constants h (.constant c)) (Env.wrapped n) := by
  obtain ⟨v, hv, hn⟩ := hd
  simp only [arrayCount, hv, hn]
  cases n with
  | none => exact .error (.lengthNotInteger ..)
  | some n => exact .ok _

lemma arrayLength_follows (length : Option Token) : Ends (Build.arrayLength length) s
    (Follows env none (fun n t _ => ∀ h, Agrees (arrayCount t.constants h n) (env.count length)) s) := by
  cases length with
  | none =>
    apply Ends.pure
    rintro _ ls ⟨⟩ hs
    exact .settled (Keeps.refl ls) hs fun h => .ok 0
  | some t =>
    rw [Build.arrayLength, Env.count]
    split
    · apply Ends.getTable
      split
      · next c hc =>
        apply Ends.pure
        rintro _ ls ⟨⟩ hs
        obtain ⟨n, hn, hd⟩ := option_rel_some (hc ▸ hs.constants t.text)
        refine .settled (Keeps.refl ls) hs fun h => ?_
        rw [hn]
        exact hd.agrees
      · split
        · exact Ends.fail Follows.none
        · exact Ends.fail Follows.none
    · split
      · exact Ends.fail Follows.none
      · next n suffix hn =>
        rw [hn]
        refine (shareConstant_ends s _).bind fun c s' hc => Ends.pure ?_
        rintro _ ls ⟨⟩ hs
        have hi := integer?_lengthValue n suffix 4
        rcases hc with ⟨v, hv, hb, rfl⟩ | ⟨rfl, rfl⟩
        · have hd : DenotesLength s'.table.constants c (some n) :=
            ⟨v, hv, (integer?_of_beq (Bool.and_eq_true_iff.mp hb).1).trans hi⟩
          exact .settled (Keeps.refl ls) hs fun h => hd.agrees
        · have ha := adds_constant s ⟨.scalar 4 (Build.lengthValue n suffix), none⟩
          have hk := Keeps.refl ls
          refine .settled hk (hs.grow ha hk (hs.laid.mono ha.types ha.constants)) fun h => ?_
          exact DenotesLength.agrees ⟨_, Arena.get?_append_next s.table.constants _, hi⟩

lemma image_ends (dimension : Token) (flag : Option Token) : Ends (Build.image dimension flag) s fun r s' =>
    ∀ shape, r = some shape → s' = s ∧ ∃ d arrayed, shape = .image d arrayed := by
  rw [Build.image.eq_def]
  split
  · exact Ends.fail (by simp)
  · next d _ =>
    apply Ends.pure
    rintro _ ⟨⟩
    exact ⟨rfl, d, false, rfl⟩
  · next d t _ =>
    split
    · apply Ends.pure
      rintro _ ⟨⟩
      exact ⟨rfl, d, true, rfl⟩
    · exact Ends.fail (by simp)

end Leaf

end ShaderLayout.Description
