import ShaderLayout.Proofs.Number.Numeral

/-!
The texts of integers, apart from how one is read. Reading accepts exactly those with few enough digits, and what is
written is one of them.
-/

namespace ShaderLayout

namespace Text.Blank

variable {s before core after : List Char}

lemma exists_append_trim (s : List Char) : ∃ before after, (∀ c ∈ before, isBlank c = true) ∧
    (∀ c ∈ after, isBlank c = true) ∧ s = before ++ trim s ++ after := by
  let r := (s.dropWhile isBlank).reverse
  refine ⟨s.takeWhile isBlank, (r.takeWhile isBlank).reverse, fun c hc => List.mem_takeWhile_imp hc, fun c hc => ?_, ?_⟩
  · exact List.mem_takeWhile_imp (List.mem_reverse.1 hc)
  · have hr : trim s ++ (r.takeWhile isBlank).reverse = s.dropWhile isBlank := by
      change (r.dropWhile isBlank).reverse ++ _ = _
      rw [← List.reverse_append, List.takeWhile_append_dropWhile, List.reverse_reverse]
    rw [List.append_assoc, hr, List.takeWhile_append_dropWhile]

lemma trim_append (hb : ∀ c ∈ before, isBlank c = true) (hc : ∀ c ∈ core, isBlank c = false)
    (ha : ∀ c ∈ after, isBlank c = true) (hne : core ≠ []) : trim (before ++ core ++ after) = core := by
  have hkeep : ∀ {t r : List Char}, t ≠ [] → (∀ c ∈ t, isBlank c = false) → (t ++ r).dropWhile isBlank = t ++ r := by
    intro t r ht h
    obtain ⟨c, t, rfl⟩ := List.exists_cons_of_ne_nil ht
    exact List.dropWhile_cons_of_neg (by simp [h c List.mem_cons_self])
  have hback : ∀ c ∈ after.reverse, isBlank c = true := fun c h => ha c (List.mem_reverse.1 h)
  rw [trim, List.append_assoc, List.dropWhile_append_of_pos hb, hkeep hne hc, List.reverse_append,
    List.dropWhile_append_of_pos hback, ← List.append_nil core.reverse,
    hkeep (by simpa using hne) fun c h => hc c (List.mem_reverse.1 h)]
  simp

end Text.Blank

namespace Number

open Text

namespace Digit

lemma zeros_apart : ∀ z ∈ zeros, (0x20 < z ∧ z + 10 ≤ 0x85) ∨ (0xa0 < z ∧ z + 10 ≤ 0x1680) ∨
    (0x1680 < z ∧ z + 10 ≤ 0x2000) ∨ 0x3000 < z := by decide

lemma not_blank {c : Char} {d : Nat} (h : value? c = some d) : Blank.isBlank c = false := by
  -- The rows of digits lie between the blanks.
  obtain ⟨z, hz, -⟩ := Option.map_eq_some_iff.1 h
  have hapart := zeros_apart z (List.mem_of_find?_eq_some hz)
  have hrow := List.find?_some hz
  simp only [decide_eq_true_eq] at hrow
  rw [Bool.eq_false_iff]
  intro hb
  simp only [Blank.isBlank, Bool.or_eq_true, Bool.and_eq_true, decide_eq_true_eq, beq_iff_eq] at hb
  omega

lemma value?_of_isDigit {c : Char} (h : c.isDigit = true) : value? c = some (c.toNat - 48) := by
  simp only [Char.isDigit, Bool.and_eq_true, decide_eq_true_eq, UInt32.le_iff_toNat_le, ge_iff_le] at h
  change 48 ≤ c.toNat ∧ c.toNat ≤ 57 at h
  have hzeros : zeros = 0x30 :: zeros.tail := rfl
  rw [value?, hzeros, List.find?_cons_of_pos (by rw [decide_eq_true_eq]; omega)]
  rfl

end Digit

namespace Numeral

def Grouped (s : List Char) (ds : List Nat) : Prop :=
  [] ∉ s.splitOn '_' ∧ (s.filter (· ≠ '_')).map Digit.value? = ds.map some

/-- The texts of an integer, with the values of their digits: digits in groups after a sign or none, and blanks
around both. -/
inductive Spelled : List Char → List Nat → Int → Prop
  | mk {before sign digits after : List Char} {ds : List Nat} (hb : ∀ c ∈ before, Blank.isBlank c = true)
      (hs : sign ∈ [[], ['+'], ['-']]) (hd : Grouped digits ds) (ha : ∀ c ∈ after, Blank.isBlank c = true) :
      Spelled (before ++ (sign ++ digits) ++ after) ds
        ((if sign = ['-'] then -1 else 1) * ((Nat.ofDigits 10 ds.reverse : Nat) : Int))

def Suffixed (s t : List Char) (x : Suffix) : Prop :=
  s = t ++ x.text.toList ∧ (x = .none → s.getLast? ≠ some 'i' ∧ s.getLast? ≠ some 'u')

section Digits

variable {s : List Char} {ds : List Nat}

lemma value?_underscore : Digit.value? '_' = none := by decide

lemma not_grouped_nil : ¬ Grouped [] ds := by
  simp [Grouped]

lemma grouped_cons {c : Char} {r : List Char} : Grouped (c :: r) ds ↔ ∃ d, Digit.value? c = some d ∧ ∃ ds',
    ([] ∉ (r.splitOn '_').tail ∧ (r.filter (· ≠ '_')).map Digit.value? = ds'.map some) ∧ d :: ds' = ds := by
  rw [Grouped, List.splitOn_cons_eq_if_modifyHead]
  by_cases hc : c = '_'
  · subst hc
    simp [value?_underscore]
  · have hb : (c == '_') = false := beq_false_of_ne hc
    have hf : (c :: r).filter (· ≠ '_') = c :: r.filter (· ≠ '_') := List.filter_cons_of_pos (by simpa using hc)
    have hg : [] ∈ (r.splitOn '_').modifyHead (List.cons c) ↔ [] ∈ (r.splitOn '_').tail := by
      cases r.splitOn '_' <;> simp
    rw [hb, hf, if_neg (by decide), hg]
    cases ds with
    | nil => simp
    | cons d ds =>
      simp only [List.map_cons, List.cons.injEq]
      constructor
      · rintro ⟨hr, hd, hds⟩
        exact ⟨d, hd, ds, ⟨hr, hds⟩, rfl, rfl⟩
      · rintro ⟨_, hd, _, ⟨hr, hds⟩, rfl, rfl⟩
        exact ⟨hr, hd, hds⟩

lemma digits?_eq_some_iff : digits? s = some ds ↔ Grouped s ds := by
  induction s using digits?.induct generalizing ds with
  | case1 => exact iff_of_false (by simp [digits?]) not_grouped_nil
  | case2 c =>
    rw [grouped_cons]
    simp [digits?]
  | case3 c r ih =>
    rw [grouped_cons, List.splitOn_cons_eq_if_modifyHead]
    simp only [digits?, Option.bind_eq_bind, Option.bind_eq_some_iff, Option.pure_def, Option.some.injEq, ih]
    rfl
  | case4 c r hr hu ih =>
    have htail : [] ∈ (r.splitOn '_').tail ↔ [] ∈ r.splitOn '_' := by
      cases r with
      | nil => exact absurd rfl hr
      | cons x r =>
        have hx : (x == '_') = false := beq_false_of_ne fun h => hu r (congrArg (List.cons · r) h)
        rw [List.splitOn_cons_eq_if_modifyHead, hx]
        cases r.splitOn '_' <;> simp
    rw [grouped_cons, digits?.eq_4 c r hr hu, htail]
    simp only [Option.bind_eq_bind, Option.bind_eq_some_iff, Option.pure_def, Option.some.injEq, ih]
    rfl

end Digits

section Integers

variable {s t : List Char} {ds : List Nat} {n : Int} {x : Suffix}

lemma ofDigits_eq (ds : List Nat) : ofDigits ds = Nat.ofDigits 10 ds.reverse := by
  induction ds using List.reverseRecOn with
  | nil => rfl
  | append_singleton ds d ih =>
    rw [List.reverse_append, List.reverse_singleton, List.singleton_append, Nat.ofDigits_cons, ← ih]
    simp only [ofDigits, List.foldl_append, List.foldl_cons, List.foldl_nil]
    omega

lemma natural?_of_grouped (h : Grouped s ds) :
    natural? s = if ds.length ≤ maxDigits then some (Nat.ofDigits 10 ds.reverse) else none := by
  rw [natural?, digits?_eq_some_iff.2 h, ← ofDigits_eq]
  rfl

lemma grouped_of_natural? {k : Nat} (h : natural? s = some k) :
    ∃ ds, Grouped s ds ∧ ds.length ≤ maxDigits ∧ k = Nat.ofDigits 10 ds.reverse := by
  simp only [natural?, Option.bind_eq_bind, Option.bind_eq_some_iff] at h
  obtain ⟨ds, hds, h⟩ := h
  split at h
  · next hle =>
    cases h
    exact ⟨ds, digits?_eq_some_iff.1 hds, hle, ofDigits_eq ds⟩
  · cases h

lemma Grouped.mem (h : Grouped s ds) {c : Char} (hc : c ∈ s) : c = '_' ∨ ∃ d, Digit.value? c = some d := by
  by_cases hu : c = '_'
  · exact .inl hu
  · have hm : Digit.value? c ∈ ds.map some := by
      rw [← h.2]
      exact List.mem_map_of_mem (List.mem_filter.2 ⟨hc, by simpa using hu⟩)
    obtain ⟨d, -, hd⟩ := List.mem_map.1 hm
    exact .inr ⟨d, hd.symm⟩

lemma Grouped.head (h : Grouped s ds) : ∃ c r d, s = c :: r ∧ Digit.value? c = some d := by
  cases s with
  | nil => exact absurd h not_grouped_nil
  | cons c r =>
    obtain ⟨d, hd, -⟩ := grouped_cons.1 h
    exact ⟨c, r, d, rfl, hd⟩

lemma Grouped.solid (h : Grouped s ds) : ∀ c ∈ s, Blank.isBlank c = false := by
  intro c hc
  obtain rfl | ⟨d, hd⟩ := h.mem hc
  · decide
  · exact Digit.not_blank hd

lemma sign_solid {sign : List Char} (hs : sign ∈ [[], ['+'], ['-']]) : ∀ c ∈ sign, Blank.isBlank c = false := by
  simp only [List.mem_cons, List.not_mem_nil, or_false] at hs
  obtain rfl | rfl | rfl := hs
  · simp
  · exact List.forall_mem_singleton.2 (by decide)
  · exact List.forall_mem_singleton.2 (by decide)

lemma Spelled.read? (h : Spelled t ds n) : read? t = if ds.length ≤ maxDigits then some n else none := by
  obtain @⟨before, sign, digits, after, ds, hb, hs, hd, ha⟩ := h
  obtain ⟨c, r, d, rfl, hc⟩ := hd.head
  have hsolid : ∀ c' ∈ sign ++ c :: r, Blank.isBlank c' = false :=
    List.forall_mem_append.2 ⟨sign_solid hs, hd.solid⟩
  have htrim := Blank.trim_append hb hsolid ha (by simp)
  have hnat := natural?_of_grouped hd
  have hunsigned : ∀ x : Char, Digit.value? x = none → c ≠ x := by
    rintro x hx rfl
    rw [hx] at hc
    cases hc
  have hplus := hunsigned '+' (by decide)
  have hminus := hunsigned '-' (by decide)
  rw [Numeral.read?, htrim]
  simp only [List.mem_cons, List.not_mem_nil, or_false] at hs
  by_cases hle : ds.length ≤ maxDigits
  · obtain rfl | rfl | rfl := hs <;> simp [hplus, hminus, hnat, hle]
  · obtain rfl | rfl | rfl := hs <;> simp [hplus, hminus, hnat, hle]

lemma spelled_of_read? (h : read? t = some n) : ∃ ds, Spelled t ds n ∧ ds.length ≤ maxDigits := by
  obtain ⟨before, after, hb, ha, ht⟩ := Blank.exists_append_trim t
  obtain ⟨sign, hs, r, k, htrim, hk, rfl⟩ := signed_of_read? h
  obtain ⟨ds, hd, hle, rfl⟩ := grouped_of_natural? hk
  rw [ht, htrim]
  exact ⟨ds, .mk hb hs hd ha, hle⟩

end Integers

section Literals

variable {s t : List Char} {ds : List Nat} {n : Int} {x : Suffix}

lemma splitSuffix_eq_iff : splitSuffix s = (t, x) ↔ Suffixed s t x := by
  constructor
  · intro h
    rw [splitSuffix] at h
    split at h
    · next hs =>
      cases h
      exact ⟨(List.dropLast_append_getLast? _ hs).symm, by simp⟩
    · next hs =>
      cases h
      exact ⟨(List.dropLast_append_getLast? _ hs).symm, by simp⟩
    · next hi hu =>
      cases h
      exact ⟨(List.append_nil s).symm, fun _ => ⟨hi, hu⟩⟩
  · rintro ⟨rfl, hx⟩
    cases x with
    | none =>
      obtain ⟨hi, hu⟩ := hx rfl
      have hs : t ++ Suffix.none.text.toList = t := List.append_nil t
      rw [hs] at hi hu ⊢
      rw [splitSuffix]
      split
      · next h => exact absurd h hi
      · next h => exact absurd h hu
      · rfl
    | signed => simp [splitSuffix, Suffix.text]
    | unsigned => simp [splitSuffix, Suffix.text]

lemma suffixed_of_digit (h : ∀ c ∈ t.getLast?, c.isDigit = true) (x : Suffix) : Suffixed (t ++ x.text.toList) t x := by
  refine ⟨rfl, ?_⟩
  rintro rfl
  have hs : t ++ Suffix.none.text.toList = t := List.append_nil t
  rw [hs]
  exact ⟨fun hi => absurd (h _ hi) (by decide), fun hu => absurd (h _ hu) (by decide)⟩

lemma Suffixed.literal? {s : String} (hx : Suffixed s.toList t x) (h : Spelled t ds n) :
    literal? s = if maxDigits < ds.length ∨ x = .unsigned ∧ n < 0 then none else some (n, x) := by
  rw [Numeral.literal?, splitSuffix_eq_iff.2 hx]
  simp only [h.read?]
  by_cases hle : ds.length ≤ maxDigits
  · simp [hle, Nat.not_lt.2 hle]
  · simp [hle, Nat.not_le.1 hle]

lemma literal?_eq_some_iff {s : String} : literal? s = some (n, x) ↔ ∃ t ds, Suffixed s.toList t x ∧ Spelled t ds n ∧
    ds.length ≤ maxDigits ∧ ¬ (x = .unsigned ∧ n < 0) := by
  constructor
  · intro h
    obtain ⟨⟨t, y⟩, hsplit⟩ : ∃ p, splitSuffix s.toList = p := ⟨_, rfl⟩
    rw [Numeral.literal?, hsplit] at h
    simp only [Option.bind_eq_bind, Option.bind_eq_some_iff] at h
    obtain ⟨m, hm, h⟩ := h
    split at h
    · cases h
    · next hsign =>
      cases h
      obtain ⟨ds, hspelled, hle⟩ := spelled_of_read? hm
      exact ⟨t, ds, splitSuffix_eq_iff.1 hsplit, hspelled, hle, hsign⟩
  · rintro ⟨t, ds, hx, hspelled, hle, hsign⟩
    rw [hx.literal? hspelled, if_neg]
    rintro (hlt | hneg)
    · exact absurd hle (Nat.not_le.2 hlt)
    · exact hsign hneg

end Literals

section Writing

lemma grouped_of_digits {s : List Char} (hne : s ≠ []) (h : ∀ c ∈ s, c.isDigit = true) :
    Grouped s (s.map fun c => c.toNat - 48) := by
  have hno : '_' ∉ s := fun hu => absurd (h _ hu) (by decide)
  constructor
  · rw [List.splitOn_eq_singleton hno]
    simpa using hne.symm
  · have hall : s.filter (· ≠ '_') = s := by
      apply List.filter_eq_self.2
      intro c hc
      rw [decide_eq_true_eq]
      rintro rfl
      exact hno hc
    rw [hall, List.map_map]
    exact List.map_congr_left fun c hc => Digit.value?_of_isDigit (h c hc)

lemma grouped_toDigits (k : Nat) : ∃ ds, Grouped (Nat.toDigits 10 k) ds ∧ ds.length = (Nat.toDigits 10 k).length ∧
    Nat.ofDigits 10 ds.reverse = k := by
  have hdigits : ∀ c ∈ Nat.toDigits 10 k, c.isDigit = true := fun c hc =>
    Nat.isDigit_of_mem_toDigits (by omega) le_rfl hc
  refine ⟨_, grouped_of_digits Nat.toDigits_ne_nil hdigits, List.length_map .., ?_⟩
  rw [← ofDigits_eq, ofDigits, List.foldl_map]
  exact Nat.ofDigitChars_eq_foldl.symm.trans Nat.ofDigitChars_ten_toDigits

lemma spelled_of_grouped {sign digits : List Char} {ds : List Nat} (hs : sign ∈ [[], ['+'], ['-']])
    (hd : Grouped digits ds) : Spelled (sign ++ digits) ds
      ((if sign = ['-'] then -1 else 1) * ((Nat.ofDigits 10 ds.reverse : Nat) : Int)) := by
  have h : Spelled ([] ++ (sign ++ digits) ++ []) ds _ := .mk (by simp) hs hd (by simp)
  rwa [List.nil_append, List.append_nil] at h

lemma literal?_text {n : Int} {x : Suffix} (hn : Writable n) (hx : x = .unsigned → 0 ≤ n) :
    literal? (text n ++ x.text) = some (n, x) := by
  obtain ⟨sign, hs, htext, hvalue⟩ := text_toList n
  obtain ⟨ds, hd, hlen, hds⟩ := grouped_toDigits n.natAbs
  have hspelled := spelled_of_grouped hs hd
  rw [hds, ← hvalue, ← htext] at hspelled
  have hle : ds.length ≤ maxDigits := by
    rw [hlen, Nat.length_toDigits_le_iff (by omega) (by decide), ← bound_eq]
    exact hn
  have hlast : ∀ c ∈ (text n).toList.getLast?, c.isDigit = true := by
    intro c hc
    rw [htext, List.getLast?_append_of_ne_nil _ Nat.toDigits_ne_nil] at hc
    exact Nat.isDigit_of_mem_toDigits (by omega) le_rfl (List.mem_of_getLast? hc)
  have hsuffixed := suffixed_of_digit hlast x
  rw [← String.toList_append] at hsuffixed
  apply literal?_eq_some_iff.2
  refine ⟨_, ds, hsuffixed, hspelled, hle, ?_⟩
  rintro ⟨rfl, hneg⟩
  exact absurd (hx rfl) (Int.not_le.2 hneg)

end Writing

end Numeral

end Number

end ShaderLayout
