import ShaderLayout.Proofs.Layout.Rules
import ShaderLayout.Proofs.Number.Numeral
import ShaderLayout.Workspace

/-!
Filling the table of layouts. `Prefix` says that a table holds the layouts of the first types of an
arena, `FailsAt` that the next type has none. A pass over the arena ends with all layouts, or with
those before the first type that fails.
-/

namespace ShaderLayout

def ConstantValue.numbers : ConstantValue → List Int
  | .scalar _ (.sint n) | .scalar _ (.uint n) => [n]
  | .scalar _ _ => []
  | .composite type _ => [type.index]

/-- The numbers in the text of an error, but for how many entries there are. -/
def LayoutError.numbers : LayoutError → List Int
  | .lengthNotInteger array constant found => array.index :: constant.index :: found.numbers
  | .notLaidOut h _ | .zeroAlignment h _ | .notInArena h _ => [h.index]
  | .sizeOverflow h _ size => [h.index, size]

lemma ConstantValue.writable_iff (v : ConstantValue) : v.Writable ↔ ∀ n ∈ v.numbers, Number.Numeral.Writable n := by
  cases v with
  | scalar width v => cases v <;> simp [numbers, Writable, ScalarValue.Writable]
  | composite type components => simp [numbers, Writable, Handle.Writable]

lemma LayoutError.writable_iff (e : LayoutError) : e.Writable ↔ ∀ n ∈ e.numbers, Number.Numeral.Writable n := by
  cases e <;> simp [numbers, Writable, Handle.Writable, ConstantValue.writable_iff]

namespace Layout

open Number.Numeral (maxDigits)

variable {types : Arena GpuType} {constants : Arena Constant} {t : Layouts}

structure Prefix (types : Arena GpuType) (constants : Arena Constant) (k : Nat) (t : Layouts) : Prop where
  size_eq : t.size = k
  size_le : k ≤ types.size
  accepts : ∀ (i : Nat) (type : GpuType) (l : Layout), types.get? ⟨i⟩ = some type → t[i]? = some l →
    Accepts (t.take i) constants type l

/-- The type at `k`, judged by the layouts of the types before it, is the first that is refused. -/
structure FailsAt (types : Arena GpuType) (constants : Arena Constant) (k : Nat) (t : Layouts)
    (e : LayoutError) : Prop where
  earlier : Prefix types constants k t
  refuses : ∃ type, types.get? ⟨k⟩ = some type ∧ Refuses t constants ⟨k⟩ type e

/-- How an error is seen from outside: a handle or a size of too many digits cannot be written. -/
def surfaced (e : LayoutError) : Failure :=
  if ∀ n ∈ e.numbers, n.natAbs < 10 ^ maxDigits then .layout e else .numeralTooLong

lemma Prefix.nil (types : Arena GpuType) (constants : Arena Constant) : Prefix types constants 0 #[] :=
  ⟨rfl, Nat.zero_le _, by simp⟩

lemma Prefix.push {k : Nat} {type : GpuType} {l : Layout} (hp : Prefix types constants k t)
    (hk : types.get? ⟨k⟩ = some type) (ha : Accepts t constants type l) :
    Prefix types constants (k + 1) (t.push l) := by
  obtain ⟨rfl, hle, hacc⟩ := hp
  have hlt : t.size < types.size := Arena.index_lt_of_get? hk
  refine ⟨by simp, hlt, fun i type' l' hi hl => ?_⟩
  rw [Array.getElem?_push] at hl
  split at hl
  · next he =>
    subst he
    cases hl
    rw [hk] at hi
    cases hi
    simpa [Array.take_eq_extract, Array.extract_push] using ha
  · have hi' := (Array.getElem?_eq_some_iff.1 hl).1
    have he : (t.push l).take i = t.take i := by
      simp only [Array.take_eq_extract, Array.extract_push]
      rw [if_pos (by omega)]
    exact he ▸ hacc i type' l' hi hl

lemma Prefix.pop {k : Nat} (hp : Prefix types constants (k + 1) t) :
    ∃ type l, types.get? ⟨k⟩ = some type ∧ t = (t.take k).push l ∧ Prefix types constants k (t.take k) ∧
      Accepts (t.take k) constants type l := by
  obtain ⟨hs, hle, hacc⟩ := hp
  have hk : k < t.size := by omega
  have hk' : k < types.items.size := hle
  refine ⟨types.items[k], t[k], Array.getElem?_eq_getElem hk', ?_, ⟨?_, by omega, ?_⟩,
    hacc k _ _ (Array.getElem?_eq_getElem hk') (Array.getElem?_eq_getElem hk)⟩
  · rw [Array.take_eq_extract, Array.push_extract_getElem hk]
    simp [← hs]
  · simp [Array.take_eq_extract]
    omega
  · intro i type l hi hl
    have hik : i < k := by
      have := (Array.getElem?_eq_some_iff.1 hl).1
      simp [Array.take_eq_extract] at this
      omega
    have he : (t.take k).take i = t.take i := by
      simp [Array.take_eq_extract, Array.extract_extract, Nat.min_eq_left hik.le]
    exact he ▸ hacc i type l hi (Keeps.take t k i l hl)

lemma Prefix.mono {types' : Arena GpuType} {constants' : Arena Constant} {k : Nat}
    (ht : types.toList <+: types'.toList) (hc : constants.toList <+: constants'.toList)
    (hp : Prefix types constants k t) : Prefix types' constants' k t := by
  refine ⟨hp.size_eq, hp.size_le.trans (Arena.size_mono ht), fun i type l hi hl => ?_⟩
  have hlt : i < types.items.size := by
    have h1 := (Array.getElem?_eq_some_iff.1 hl).1
    have h2 := hp.size_eq
    exact (h2 ▸ h1).trans_le hp.size_le
  have hi' : types.get? ⟨i⟩ = some types.items[i] := Array.getElem?_eq_getElem hlt
  rw [Arena.get?_mono ht hi'] at hi
  cases hi
  exact (hp.accepts i _ l hi' hl).mono (fun _ _ h => h) fun _ _ h => Arena.get?_mono hc h

lemma drop_of_get? {k : Nat} {type : GpuType} (h : types.get? ⟨k⟩ = some type) :
    types.toList.drop k = type :: types.toList.drop (k + 1) := by
  rw [Arena.get?_eq_toList] at h
  obtain ⟨hk, he⟩ := List.getElem?_eq_some_iff.1 h
  rw [List.drop_eq_getElem_cons hk, he]

lemma Prefix.fill_eq {k : Nat} (hp : Prefix types constants k t) :
    fill types constants = extend constants t (types.toList.drop k) := by
  -- A pass can be taken up after any good prefix.
  induction k generalizing t with
  | zero =>
    have : t = #[] := Array.size_eq_zero_iff.1 hp.size_eq
    subst this
    rfl
  | succ k ih =>
    obtain ⟨type, l, hk, ht, hp', ha⟩ := hp.pop
    rw [ih hp', drop_of_get? hk, extend, ha.ofType]
    simp only
    rw [← ht]

lemma Prefix.fill_all (hp : Prefix types constants types.size t) : fill types constants = (t, none) := by
  rw [hp.fill_eq, List.drop_eq_nil_of_le (by simp [Arena.toList, Arena.size])]
  rfl

lemma FailsAt.fill {k : Nat} {e : LayoutError} (hf : FailsAt types constants k t e) :
    fill types constants = (t, some e) := by
  obtain ⟨hp, type, hk, he⟩ := hf
  rw [hp.fill_eq, drop_of_get? hk, extend, hp.size_eq, he.ofType]

lemma extend_ends (rest : List GpuType) (hp : Prefix types constants t.size t)
    (hr : types.toList.drop t.size = rest) :
    (∃ t', extend constants t rest = (t', none) ∧ Prefix types constants types.size t') ∨
      ∃ t' e, extend constants t rest = (t', some e) ∧ FailsAt types constants t'.size t' e := by
  induction rest generalizing t with
  | nil =>
    have hs : types.size ≤ t.size := List.drop_eq_nil_iff.1 hr
    have he : t.size = types.size := Nat.le_antisymm hp.size_le hs
    exact .inl ⟨t, rfl, he ▸ hp⟩
  | cons type rest ih =>
    have hk : types.get? ⟨t.size⟩ = some type := by
      rw [Arena.get?_eq_toList, ← List.head?_drop, hr]
      rfl
    rw [extend]
    cases ho : ofType t constants ⟨t.size⟩ type with
    | error e =>
      exact .inr ⟨t, e, rfl, hp, type, hk, ofType_eq_error_iff.1 ho⟩
    | ok l =>
      have hp' := hp.push hk (ofType_eq_ok_iff.1 ho)
      rw [drop_of_get? hk] at hr
      refine ih (by simpa using hp') ?_
      rw [Array.size_push]
      exact (List.cons.inj hr).2

lemma extend_isPrefix (constants : Arena Constant) (t : Layouts) (rest : List GpuType) :
    t.toList <+: (extend constants t rest).1.toList := by
  induction rest generalizing t with
  | nil => exact List.prefix_rfl
  | cons type rest ih =>
    rw [extend]
    cases ofType t constants ⟨t.size⟩ type with
    | error e => exact List.prefix_rfl
    | ok l =>
      refine List.IsPrefix.trans ?_ (ih (t.push l))
      rw [Array.toList_push]
      exact List.prefix_append ..

lemma fill_ends (types : Arena GpuType) (constants : Arena Constant) :
    (∃ t, fill types constants = (t, none) ∧ Prefix types constants types.size t) ∨
      ∃ t e, fill types constants = (t, some e) ∧ FailsAt types constants t.size t e :=
  extend_ends _ (Prefix.nil types constants) rfl

lemma Prefix.accepts_full (hp : Prefix types constants types.size t) {i : Nat} {type : GpuType}
    (hi : types.get? ⟨i⟩ = some type) : ∃ l, t[i]? = some l ∧ Accepts t constants type l := by
  have hlt : i < t.size := by
    rw [hp.size_eq]
    exact Arena.index_lt_of_get? hi
  have hl := Array.getElem?_eq_getElem hlt
  exact ⟨_, hl, (hp.accepts i type _ hi hl).mono (Keeps.take t i) fun _ _ h => h⟩

lemma table_prefix (h : table types constants = .ok t) : Prefix types constants types.size t := by
  obtain ⟨t', hf, hp⟩ | ⟨t', e, hf, _⟩ := fill_ends types constants
  · rw [table, hf] at h
    cases h
    exact hp
  · rw [table, hf] at h
    cases h

lemma ofError_eq_surfaced (e : LayoutError) : Failure.ofError e = surfaced e := by
  simp only [Failure.ofError, surfaced, e.writable_iff, Number.Numeral.Writable, Number.Numeral.bound_eq]

lemma FailsAt.table {k : Nat} {e : LayoutError} (hf : FailsAt types constants k t e) :
    Layout.table types constants = .error (surfaced e) := by
  rw [Layout.table, hf.fill]
  exact congrArg Except.error (ofError_eq_surfaced e)

lemma surfaced_of_small {e : LayoutError} (h : ∀ n ∈ e.numbers, n.natAbs < 10 ^ 12) : surfaced e = .layout e :=
  if_pos fun n hn => (h n hn).trans_le (Nat.pow_le_pow_right (by decide) (by decide))

lemma recompute_run (w : Workspace) :
    Workspace.recompute.run.run w =
      ((fill w.types w.constants).2.elim (.ok ()) fun e => .error (.ofError e),
        { w with layouts := (fill w.types w.constants).1 }) := by
  have hget : StateT.run (ExceptT.run (get : Workspace.Action Workspace)) w = pure (.ok w, w) := rfl
  have hset : ∀ w', StateT.run (ExceptT.run (set w' : Workspace.Action PUnit)) w = pure (.ok ⟨⟩, w') :=
    fun _ => rfl
  simp only [Workspace.recompute, ExceptT.run_bind, StateT.run_bind, hget, hset, pure_bind]
  generalize fill w.types w.constants = p
  obtain ⟨t, _ | e⟩ := p
  · rfl
  · rfl

end Layout

end ShaderLayout
