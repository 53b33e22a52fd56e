import ShaderLayout.Proofs.Description.Naming

namespace ShaderLayout.Description

open Number

namespace AttributeKind

def name : AttributeKind → String
  | align => "align"
  | size => "size"
  | stride => "stride"

lemma name_injective {k k' : AttributeKind} (h : k.name = k'.name) : k = k' := by
  cases k <;> cases k' <;> first | rfl | exact absurd h (by decide)

lemma ofName?_eq_some_iff {s : String} {k : AttributeKind} : ofName? s = some k ↔ k.name = s := by
  constructor
  · intro h
    unfold ofName? at h
    split at h <;> cases h <;> rfl
  · rintro rfl
    cases k <;> rfl

end AttributeKind

inductive Check
  | known
  | placed
  | single
  | positive
  | powerOfTwo

namespace Check

def inOrder : List Check := [known, placed, single, positive, powerOfTwo]

def code : Check → String
  | known => "CE1006"
  | placed => "CE1008"
  | single => "CE1007"
  | positive => "CE1009"
  | powerOfTwo => "CE1009"

end Check

namespace Attribute

/-- An attribute fails a check, whatever the others say. Attributes of the kinds `taken` were accepted before it. -/
inductive Violates (allowed : List AttributeKind) (target : String) (taken : List AttributeKind) (a : Attribute) :
    Check → Problem → Prop
  | known (h : ∀ k : AttributeKind, k.name ≠ a.name.text) :
      Violates allowed target taken a .known (.unknownAttribute a.name.text)
  | placed (h : ∀ k ∈ allowed, k.name ≠ a.name.text) :
      Violates allowed target taken a .placed (.misplacedAttribute a.name.text target)
  | single {k : AttributeKind} (hk : k.name = a.name.text) (h : k ∈ taken) :
      Violates allowed target taken a .single (.repeatedAttribute a.name.text)
  | positive (h : ∀ n x, Numeral.literal? a.value.text = some (n, x) → n ≤ 0) :
      Violates allowed target taken a .positive (.invalidAttribute a.value.text a.name.text "must be positive")
  | powerOfTwo {n : Int} {x : Numeral.Suffix} (ha : AttributeKind.align.name = a.name.text)
      (hn : Numeral.literal? a.value.text = some (n, x)) (h : ∀ k : Nat, n ≠ 2 ^ k) :
      Violates allowed target taken a .powerOfTwo
        (.invalidAttribute (Numeral.text n) a.name.text "must be a power of two")

abbrev Judgement := Except Problem (AttributeKind × Int)

/-- Rejected with the code of the first check that fails, or accepted with the value of the literal. -/
inductive Judged (allowed : List AttributeKind) (target : String) (taken : List AttributeKind) (a : Attribute) :
    Judgement → Prop
  | rejected {before after : List Check} {check : Check} {p : Problem} (ho : Check.inOrder = before ++ check :: after)
      (hb : ∀ c ∈ before, ∀ q, ¬ Violates allowed target taken a c q) (h : Violates allowed target taken a check p)
      (hc : p.message.code = check.code) : Judged allowed target taken a (.error p)
  | accepted {k : AttributeKind} {n : Int} {x : Numeral.Suffix} (h : ∀ c q, ¬ Violates allowed target taken a c q)
      (hk : k.name = a.name.text) (hn : Numeral.literal? a.value.text = some (n, x)) :
      Judged allowed target taken a (.ok (k, n))

def acceptedOf (vs : List Judgement) : Accepted := vs.filterMap Except.toOption

def kindsOf (vs : List Judgement) : List AttributeKind := (acceptedOf vs).map Prod.fst

def findingsOf (as : List Attribute) (vs : List Judgement) : List Finding :=
  (as.zip vs).filterMap fun e => match e.2 with
    | .error p => some ⟨p, e.1.region⟩
    | .ok _ => none

section One

variable {allowed : List AttributeKind} {target : String} {taken : List AttributeKind} {accepted : Accepted}
  {a : Attribute} {k : AttributeKind} {q : Problem}

lemma Judged.of_first (before : List Check) {after : List Check} {check : Check}
    (h : Violates allowed target taken a check q) (ho : Check.inOrder = before ++ check :: after)
    (hb : ∀ c ∈ before, ∀ q, ¬ Violates allowed target taken a c q) : Judged allowed target taken a (.error q) := by
  refine .rejected ho hb h ?_
  cases h <;> rfl

lemma passes_known (hk : k.name = a.name.text) : ¬ Violates allowed target taken a .known q := by
  intro hp
  cases hp with
  | known hne => exact hne k hk

lemma passes_placed (hk : k.name = a.name.text) (h : k ∈ allowed) : ¬ Violates allowed target taken a .placed q := by
  intro hp
  cases hp with
  | placed hne => exact hne k h hk

lemma passes_single (hk : k.name = a.name.text) (h : k ∉ taken) : ¬ Violates allowed target taken a .single q := by
  intro hp
  cases hp with
  | single hk' ht =>
    obtain rfl := AttributeKind.name_injective (hk'.trans hk.symm)
    exact h ht

lemma passes_positive {n : Int} {x : Numeral.Suffix} (hn : Numeral.literal? a.value.text = some (n, x)) (h : 0 < n) :
    ¬ Violates allowed target taken a .positive q := by
  intro hp
  cases hp with
  | positive hle => exact absurd (hle n x hn) (Int.not_le.2 h)

lemma passes_powerOfTwo {n : Int} {x : Numeral.Suffix} (hk : k.name = a.name.text)
    (hn : Numeral.literal? a.value.text = some (n, x)) (h : k = .align → ∃ e : Nat, n = 2 ^ e) :
    ¬ Violates allowed target taken a .powerOfTwo q := by
  intro hp
  cases hp with
  | powerOfTwo ha hn' hne =>
    rw [hn] at hn'
    cases hn'
    obtain ⟨e, he⟩ := h (AttributeKind.name_injective (hk.trans ha.symm))
    exact hne e he

lemma value?_judged (hk : k.name = a.name.text) (hp : k ∈ allowed) (ht : k ∉ taken) :
    Judged allowed target taken a ((a.value? k).map (k, ·)) := by
  have hfirst : ∀ c ∈ [Check.known, .placed, .single], ∀ q, ¬ Violates allowed target taken a c q := by
    simp [passes_known hk, passes_placed hk hp, passes_single hk ht]
  rw [value?]
  cases hn : Numeral.literal? a.value.text with
  | none => exact .of_first _ (.positive (by simp [hn])) rfl hfirst
  | some e =>
    obtain ⟨n, x⟩ := e
    simp only
    split
    · next hle =>
      refine .of_first _ (.positive fun n' x' hn' => ?_) rfl hfirst
      rw [hn] at hn'
      cases hn'
      exact hle
    · next hpos =>
      have hpositive : ∀ q, ¬ Violates allowed target taken a .positive q := fun q =>
        passes_positive hn (Int.not_le.1 hpos)
      split
      · next halign =>
        obtain ⟨rfl, hpow⟩ := halign
        refine .of_first [.known, .placed, .single, .positive] (.powerOfTwo hk hn fun e he => ?_) rfl ?_
        · rw [isPowerOfTwo_iff.2 ⟨e, he⟩] at hpow
          cases hpow
        · simp [passes_known hk, passes_placed hk hp, passes_single hk ht, hpositive]
      · next hpow =>
        refine .accepted (fun c q => ?_) hk hn
        cases c with
        | known => exact hfirst .known (by simp) q
        | placed => exact hfirst .placed (by simp) q
        | single => exact hfirst .single (by simp) q
        | positive => exact hpositive q
        | powerOfTwo =>
          apply passes_powerOfTwo hk hn
          intro hk'
          apply isPowerOfTwo_iff.1
          by_contra hne
          exact hpow ⟨hk', Bool.eq_false_iff.2 hne⟩

lemma judge_judged (allowed : List AttributeKind) (target : String) (accepted : Accepted) (a : Attribute) :
    Judged allowed target (accepted.map Prod.fst) a (judge allowed target accepted a) := by
  rw [judge]
  cases hk : AttributeKind.ofName? a.name.text with
  | none =>
    refine .of_first [] (.known fun k hk' => ?_) rfl (by simp)
    rw [AttributeKind.ofName?_eq_some_iff.2 hk'] at hk
    cases hk
  | some k =>
    replace hk := AttributeKind.ofName?_eq_some_iff.1 hk
    simp only
    split
    · next hp =>
      refine .of_first [.known] (.placed fun k' hk' hname => ?_) rfl (by simp [passes_known hk])
      obtain rfl := AttributeKind.name_injective (hname.trans hk.symm)
      exact hp hk'
    · next hp =>
      rw [not_not] at hp
      have htaken : (accepted.lookup k).isSome = true ↔ k ∈ accepted.map Prod.fst := by
        rw [List.lookup_isSome_iff, List.mem_map]
        simp only [beq_iff_eq]
        exact exists_congr fun e => and_congr_right fun _ => eq_comm
      split
      · next ht =>
        exact .of_first [.known, .placed] (.single hk (htaken.1 ht)) rfl
          (by simp [passes_known hk, passes_placed hk hp])
      · next ht => exact value?_judged hk hp fun h => ht (htaken.2 h)

lemma Judged.granted {e : AttributeKind × Int} (h : Judged allowed target taken a (.ok e)) :
    e.1.name = a.name.text ∧ e.1 ∈ allowed ∧ e.1 ∉ taken ∧
      (∃ x, Numeral.literal? a.value.text = some (e.2, x)) ∧ Granted e := by
  cases h with
  | @accepted k n x hpass hk hn =>
    refine ⟨hk, ?_, fun ht => hpass _ _ (.single hk ht), ⟨x, hn⟩, ?_, fun ha => ?_⟩
    · by_contra hp
      refine hpass _ _ (.placed fun k' hk' hname => hp ?_)
      rwa [AttributeKind.name_injective (hk.trans hname.symm)]
    · by_contra hle
      refine hpass _ _ (.positive fun n' x' hn' => ?_)
      rw [hn] at hn'
      cases hn'
      exact Int.not_lt.1 hle
    · by_contra hne
      simp only at ha
      subst ha
      exact hpass _ _ (.powerOfTwo hk hn (not_exists.1 hne))

end One

section All

variable {allowed : List AttributeKind} {target : String} {accepted : Accepted} {as : List Attribute}

def judgements (allowed : List AttributeKind) (target : String) : Accepted → List Attribute → List Judgement
  | _, [] => []
  | accepted, a :: rest =>
    let v := judge allowed target accepted a
    v :: judgements allowed target (accepted ++ acceptedOf [v]) rest

lemma length_judgements : (judgements allowed target accepted as).length = as.length := by
  induction as generalizing accepted with
  | nil => rfl
  | cons a rest ih => rw [judgements, List.length_cons, ih, List.length_cons]

lemma acceptedOf_cons (v : Judgement) (vs : List Judgement) :
    acceptedOf (v :: vs) = acceptedOf [v] ++ acceptedOf vs := by
  rw [acceptedOf, ← List.singleton_append, List.filterMap_append]
  rfl

@[simp] lemma acceptedOf_error (p : Problem) : acceptedOf [.error p] = [] := rfl

@[simp] lemma acceptedOf_ok (e : AttributeKind × Int) : acceptedOf [.ok e] = [e] := rfl

lemma judgeAll_eq : judgeAll allowed target accepted as =
    (accepted ++ acceptedOf (judgements allowed target accepted as),
      findingsOf as (judgements allowed target accepted as)) := by
  induction as generalizing accepted with
  | nil => simp [judgeAll, judgements, acceptedOf, findingsOf]
  | cons a rest ih =>
    rw [judgeAll, judgements, acceptedOf_cons, ← List.append_assoc]
    cases hj : judge allowed target accepted a with
    | ok e =>
      simp only [ih]
      rfl
    | error p =>
      simp only [ih, acceptedOf_error, List.append_nil]
      rfl

lemma judgements_judged {i : Nat} {a : Attribute} {v : Judgement} (ha : as[i]? = some a)
    (hv : (judgements allowed target accepted as)[i]? = some v) :
    Judged allowed target (accepted.map Prod.fst ++ kindsOf ((judgements allowed target accepted as).take i)) a v := by
  induction as generalizing accepted i with
  | nil => cases ha
  | cons b rest ih =>
    rw [judgements] at hv ⊢
    cases i with
    | zero =>
      cases ha
      cases hv
      have h := judge_judged allowed target accepted a
      rwa [← List.append_nil (accepted.map Prod.fst)] at h
    | succ i =>
      have h := ih ha hv
      rw [List.map_append, List.append_assoc] at h
      rwa [List.take_succ_cons, kindsOf, acceptedOf_cons, List.map_append]

lemma kinds_nodup (accepted : Accepted) (h : (accepted.map Prod.fst).Nodup) :
    ((accepted ++ acceptedOf (judgements allowed target accepted as)).map Prod.fst).Nodup := by
  induction as generalizing accepted with
  | nil => simpa [judgements, acceptedOf] using h
  | cons a rest ih =>
    rw [judgements, acceptedOf_cons, ← List.append_assoc]
    apply ih
    have hj := judge_judged allowed target accepted a
    cases hv : judge allowed target accepted a with
    | error p => rwa [acceptedOf_error, List.append_nil]
    | ok e =>
      rw [hv] at hj
      obtain ⟨-, -, hfresh, -⟩ := hj.granted
      rw [acceptedOf_ok, List.map_append]
      exact h.append (List.nodup_singleton e.1) (by simpa using hfresh)

lemma granted_of_not_rejected (h : findingsOf as (judgements allowed target accepted as) = []) :
    List.Forall₂ (fun a e => e.1.name = a.name.text ∧ e.1 ∈ allowed ∧
      (∃ x, Numeral.literal? a.value.text = some (e.2, x)) ∧ Granted e) as
      (acceptedOf (judgements allowed target accepted as)) := by
  induction as generalizing accepted with
  | nil => exact .nil
  | cons a rest ih =>
    have hj := judge_judged allowed target accepted a
    rw [judgements] at h ⊢
    rw [acceptedOf_cons]
    cases hv : judge allowed target accepted a with
    | error p =>
      rw [hv] at h
      cases h
    | ok e =>
      rw [hv] at hj h
      obtain ⟨hname, hplaced, -, hliteral, hgranted⟩ := hj.granted
      exact .cons ⟨hname, hplaced, hliteral, hgranted⟩ (ih h)

lemma findingsOf_eq_nil_iff {vs : List Judgement} (hlen : vs.length = as.length) :
    findingsOf as vs = [] ↔ ∀ p, .error p ∉ vs := by
  induction vs generalizing as with
  | nil => simp [findingsOf]
  | cons v vs ih =>
    cases as with
    | nil => cases hlen
    | cons a rest =>
      cases v with
      | error p => exact iff_of_false (fun h => by cases h) fun h => h p List.mem_cons_self
      | ok e =>
        have hrest := ih (Nat.succ.inj hlen)
        simpa [findingsOf] using hrest

end All

end Attribute

section

variable (allowed : List AttributeKind) (target : String) (as : List Attribute)

lemma attributes_run (s : Progress) :
    let vs := Attribute.judgements allowed target [] as
    (Build.attributes allowed target as).run s =
      (if Attribute.findingsOf as vs = [] then some (Attribute.acceptedOf vs) else none,
        { s with findings := s.findings ++ Attribute.findingsOf as vs }) := by
  intro vs
  change (if (Attribute.judgeAll allowed target [] as).2 = [] then _ else _, _) = _
  rw [Attribute.judgeAll_eq]
  rfl

lemma judged_items (r : Report) :
    let fs := Attribute.findingsOf as (Attribute.judgements allowed target [] as)
    (fs.foldl Finding.addTo r).items = r.items ++ fs.map fun f =>
      ⟨.error, f.problem.message.code, f.problem.message.fill f.problem.arguments, some f.region.span,
        some r.filename⟩ := by
  intro fs
  rw [addTo_foldl]
  congr 1
  apply List.map_congr_left
  intro f hf
  have hjudged : f ∈ (Attribute.judgeAll allowed target [] as).2 := by
    rw [Attribute.judgeAll_eq]
    exact hf
  have herror := Attribute.judgeAll_isError allowed target [] as f hjudged
  rw [of_decide_eq_true herror]
  rfl

end

/-- Attributes are judged one by one, each in view of those accepted before it. The rejected ones are reported in their
order, each as one error, and nothing else is. There is an answer only if none is rejected, and then it has one entry
for each attribute. -/
theorem attributes_judged (allowed : List AttributeKind) (target : String) (as : List Attribute) (s : Progress) :
    let run := (Build.attributes allowed target as).run s
    ∃ vs : List Attribute.Judgement, vs.length = as.length ∧
      (∀ i a v, as[i]? = some a → vs[i]? = some v →
        Attribute.Judged allowed target (Attribute.kindsOf (vs.take i)) a v) ∧
      run.2 = { s with findings := s.findings ++ Attribute.findingsOf as vs } ∧
      (∀ r : Report, ((Attribute.findingsOf as vs).foldl Finding.addTo r).items =
        r.items ++ (Attribute.findingsOf as vs).map fun f =>
          ⟨.error, f.problem.message.code, f.problem.message.fill f.problem.arguments, some f.region.span,
            some r.filename⟩) ∧
      (run.1 = none ↔ ∃ p, .error p ∈ vs) ∧
      ∀ entries, run.1 = some entries → (entries.map Prod.fst).Nodup ∧
        List.Forall₂ (fun a e => e.1.name = a.name.text ∧ e.1 ∈ allowed ∧
          (∃ x, Numeral.literal? a.value.text = some (e.2, x)) ∧ Granted e) as entries := by
  intro run
  let vs := Attribute.judgements allowed target [] as
  have hlen : vs.length = as.length := Attribute.length_judgements
  have hrun : run = _ := attributes_run allowed target as s
  refine ⟨vs, hlen, fun i a v ha hv => Attribute.judgements_judged ha hv, congrArg Prod.snd hrun,
    judged_items allowed target as, ?none, fun entries he => ?some⟩
  case none =>
    have hnil := Attribute.findingsOf_eq_nil_iff hlen
    rw [hrun]
    by_cases h : Attribute.findingsOf as vs = []
    · simpa [vs, h] using hnil.1 h
    · simpa [vs, h] using mt hnil.2 h
  case some =>
    rw [hrun] at he
    by_cases h : Attribute.findingsOf as vs = []
    · simp only [vs, h, if_true, Option.some.injEq] at he
      subst he
      exact ⟨Attribute.kinds_nodup [] List.nodup_nil, Attribute.granted_of_not_rejected h⟩
    · simp [vs, h] at he

theorem attributes_judged_member :
    let first : Attribute := ⟨⟨.name, "align", default⟩, ⟨.integer, "16", default⟩, default⟩
    let second : Attribute := ⟨⟨.name, "size", default⟩, ⟨.integer, "20u", default⟩, default⟩
    ((Build.attributes [.align, .size] "struct member" [first, second]).run .initial).1 =
        some [(.align, 16), (.size, 20)] ∧
      (∃ (vs : List Attribute.Judgement) (v : Attribute.Judgement), vs[1]? = some v ∧
        Attribute.Judged [.align, .size] "struct member" (Attribute.kindsOf (vs.take 1)) second v) ∧
      Granted (.align, 16) ∧ Granted (.size, 20) := by
  intro first second
  obtain ⟨vs, hlen, hjudged, -, -, -, hentries⟩ :=
    attributes_judged [.align, .size] "struct member" [first, second] .initial
  have hrun : ((Build.attributes [.align, .size] "struct member" [first, second]).run .initial).1 =
      some [(.align, 16), (.size, 20)] := by decide +kernel
  have hsecond : 1 < vs.length := by
    rw [hlen]
    exact Nat.one_lt_two
  have hv : vs[1]? = some vs[1] := List.getElem?_eq_getElem hsecond
  obtain ⟨-, hall⟩ := hentries _ hrun
  cases hall with
  | cons h hrest =>
    cases hrest with
    | cons h' _ => exact ⟨hrun, ⟨vs, vs[1], hv, hjudged 1 second _ rfl hv⟩, h.2.2.2, h'.2.2.2⟩

-- What was rejected does not count as given before.
example :
    let align (value : String) : Attribute := ⟨⟨.name, "align", default⟩, ⟨.integer, value, default⟩, default⟩
    (((Build.attributes [.align] "" [align "12", align "16", align "8"]).run .initial).2.findings.map
      (·.problem.message.code)) = ["CE1009", "CE1007"] := by decide +kernel

end ShaderLayout.Description
