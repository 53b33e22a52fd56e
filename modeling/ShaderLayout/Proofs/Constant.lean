import Mathlib
import ShaderLayout.Constant

/-!
When two constants are equal. Kinds and names count, and floats are compared as numbers, but a not-a-number equals only
itself as an object, so that equality stays an equivalence.
-/

namespace ShaderLayout

def SameNumber (x y : Float) : Prop := (x.isNaN = false ∧ x = y) ∨ (x = 0 ∧ y = -0) ∨ (x = -0 ∧ y = 0)

inductive FloatObject.Alike (x y : FloatObject) : Prop
  | number (h : SameNumber x.value y.value)
  | object (hx : x.isNaN = true) (hy : y.isNaN = true) (h : x.object = y.object)

inductive ScalarValue.Alike : ScalarValue → ScalarValue → Prop
  | sint (n : Int) : Alike (.sint n) (.sint n)
  | uint (n : Int) : Alike (.uint n) (.uint n)
  | float {x y : FloatObject} (h : x.Alike y) : Alike (.float x) (.float y)
  | bool (b : Bool) : Alike (.bool b) (.bool b)

inductive ConstantValue.Alike : ConstantValue → ConstantValue → Prop
  | scalar (width : Int) {v w : ScalarValue} (h : v.Alike w) : Alike (.scalar width v) (.scalar width w)
  | composite (type : Handle) (components : List Handle) :
      Alike (.composite type components) (.composite type components)

structure Constant.Alike (c d : Constant) : Prop where
  name : c.name = d.name
  value : c.value.Alike d.value

section Reflexive

lemma FloatObject.Alike.refl (x : FloatObject) : x.Alike x := by
  by_cases hx : x.isNaN = true
  · exact .object hx hx rfl
  · exact .number (.inl ⟨Bool.not_eq_true _ ▸ hx, rfl⟩)

lemma ScalarValue.Alike.refl : ∀ v : ScalarValue, v.Alike v
  | .sint n => .sint n
  | .uint n => .uint n
  | .float x => .float (.refl x)
  | .bool b => .bool b

lemma Constant.Alike.refl (c : Constant) : c.Alike c := by
  refine ⟨rfl, ?_⟩
  cases c.value with
  | scalar width v => exact .scalar width (.refl v)
  | composite type components => exact .composite type components

end Reflexive

section Symmetric

lemma SameNumber.symm {x y : Float} (h : SameNumber x y) : SameNumber y x := by
  rcases h with ⟨hx, rfl⟩ | ⟨rfl, rfl⟩ | ⟨rfl, rfl⟩
  · exact .inl ⟨hx, rfl⟩
  · exact .inr (.inr ⟨rfl, rfl⟩)
  · exact .inr (.inl ⟨rfl, rfl⟩)

lemma FloatObject.Alike.symm {x y : FloatObject} (h : x.Alike y) : y.Alike x := by
  cases h with
  | number h => exact .number h.symm
  | object hx hy h => exact .object hy hx h.symm

lemma ScalarValue.Alike.symm {v w : ScalarValue} (h : v.Alike w) : w.Alike v := by
  cases h with
  | sint n => exact .sint n
  | uint n => exact .uint n
  | float h => exact .float h.symm
  | bool b => exact .bool b

lemma ConstantValue.Alike.symm {v w : ConstantValue} (h : v.Alike w) : w.Alike v := by
  cases h with
  | scalar width h => exact .scalar width h.symm
  | composite type components => exact .composite type components

lemma Constant.Alike.symm {c d : Constant} (h : c.Alike d) : d.Alike c := ⟨h.name.symm, h.value.symm⟩

end Symmetric

section Transitive

lemma isNaN_zero : (0 : Float).isNaN = false := by decide

lemma isNaN_negZero : (-0 : Float).isNaN = false := by decide

lemma SameNumber.trans {x y z : Float} (h : SameNumber x y) (h' : SameNumber y z) : SameNumber x z := by
  rcases h with ⟨-, rfl⟩ | ⟨rfl, rfl⟩ | ⟨rfl, rfl⟩
  · exact h'
  · rcases h' with ⟨-, rfl⟩ | ⟨-, rfl⟩ | ⟨-, rfl⟩
    · exact .inr (.inl ⟨rfl, rfl⟩)
    · exact .inr (.inl ⟨rfl, rfl⟩)
    · exact .inl ⟨isNaN_zero, rfl⟩
  · rcases h' with ⟨-, rfl⟩ | ⟨-, rfl⟩ | ⟨-, rfl⟩
    · exact .inr (.inr ⟨rfl, rfl⟩)
    · exact .inl ⟨isNaN_negZero, rfl⟩
    · exact .inr (.inr ⟨rfl, rfl⟩)

lemma SameNumber.isNaN_left {x y : Float} (h : SameNumber x y) : x.isNaN = false := by
  rcases h with ⟨hx, -⟩ | ⟨rfl, -⟩ | ⟨rfl, -⟩
  · exact hx
  · exact isNaN_zero
  · exact isNaN_negZero

lemma SameNumber.isNaN_right {x y : Float} (h : SameNumber x y) : y.isNaN = false := h.symm.isNaN_left

lemma FloatObject.Alike.trans {x y z : FloatObject} (h : x.Alike y) (h' : y.Alike z) : x.Alike z := by
  cases h with
  | number h =>
    cases h' with
    | number h' => exact .number (h.trans h')
    | object hy => exact (Bool.false_ne_true (h.isNaN_right.symm.trans hy)).elim
  | object hx hy h =>
    cases h' with
    | number h' => exact (Bool.false_ne_true (h'.isNaN_left.symm.trans hy)).elim
    | object _ hz h' => exact .object hx hz (h.trans h')

lemma ScalarValue.Alike.trans {v w u : ScalarValue} (h : v.Alike w) (h' : w.Alike u) : v.Alike u := by
  cases h with
  | sint n => exact h'
  | uint n => exact h'
  | float h =>
    cases h' with
    | float h' => exact .float (h.trans h')
  | bool b => exact h'

lemma ConstantValue.Alike.trans {v w u : ConstantValue} (h : v.Alike w) (h' : w.Alike u) : v.Alike u := by
  cases h with
  | scalar width h =>
    cases h' with
    | scalar _ h' => exact .scalar width (h.trans h')
  | composite type components => exact h'

lemma Constant.Alike.trans {c d e : Constant} (h : c.Alike d) (h' : d.Alike e) : c.Alike e :=
  ⟨h.name.trans h'.name, h.value.trans h'.value⟩

end Transitive

section Equality

lemma float_beq_iff {x y : Float} : (x == y) = true ↔ SameNumber x y := by
  have hzero : (0 : Float) ≠ Float.nan := by decide
  have hneg : (-0 : Float) ≠ Float.nan := by decide
  rw [Float.beq_iff_ne_nan_and_eq, SameNumber, Float.isNaN_eq_decide_eq_nan, decide_eq_false_iff_not]
  constructor
  · rintro ⟨hx, -, rfl | h | h⟩
    · exact .inl ⟨hx, rfl⟩
    · exact .inr (.inl h)
    · exact .inr (.inr h)
  · rintro (⟨hx, rfl⟩ | ⟨rfl, rfl⟩ | ⟨rfl, rfl⟩)
    · exact ⟨hx, hx, .inl rfl⟩
    · exact ⟨hzero, hneg, .inr (.inl ⟨rfl, rfl⟩)⟩
    · exact ⟨hneg, hzero, .inr (.inr ⟨rfl, rfl⟩)⟩

lemma FloatObject.beq_iff {x y : FloatObject} : (x == y) = true ↔ x.Alike y := by
  change (x.value == y.value || (x.isNaN && y.isNaN && x.object == y.object)) = true ↔ _
  rw [Bool.or_eq_true, Bool.and_eq_true, Bool.and_eq_true, float_beq_iff, beq_iff_eq]
  constructor
  · rintro (h | ⟨⟨hx, hy⟩, h⟩)
    · exact .number h
    · exact .object hx hy h
  · rintro (h | ⟨hx, hy, h⟩)
    · exact .inl h
    · exact .inr ⟨⟨hx, hy⟩, h⟩

lemma ScalarValue.beq_iff {v w : ScalarValue} : (v == w) = true ↔ v.Alike w := by
  constructor
  · intro h
    cases v <;> cases w
    case sint.sint n m => exact eq_of_beq (α := Int) h ▸ .sint n
    case uint.uint n m => exact eq_of_beq (α := Int) h ▸ .uint n
    case float.float x y => exact .float (FloatObject.beq_iff.1 h)
    case bool.bool b c => exact eq_of_beq (α := Bool) h ▸ .bool b
    all_goals cases h
  · intro h
    cases h with
    | sint n => exact beq_self_eq_true n
    | uint n => exact beq_self_eq_true n
    | float h => exact FloatObject.beq_iff.2 h
    | bool b => exact beq_self_eq_true b

lemma ConstantValue.beq_iff {v w : ConstantValue} : (v == w) = true ↔ v.Alike w := by
  constructor
  · intro h
    cases v <;> cases w
    case scalar.scalar width v width' w =>
      obtain ⟨hwidth, hv⟩ := (Bool.and_eq_true _ _).mp h
      obtain rfl := eq_of_beq (α := Int) hwidth
      exact .scalar width (ScalarValue.beq_iff.1 hv)
    case composite.composite type components type' components' =>
      obtain ⟨htype, hc⟩ := (Bool.and_eq_true _ _).mp h
      obtain rfl := eq_of_beq (α := Handle) htype
      obtain rfl := eq_of_beq (α := List Handle) hc
      exact .composite type components
    all_goals cases h
  · intro h
    cases h with
    | scalar width h => exact (Bool.and_eq_true _ _).mpr ⟨beq_self_eq_true width, ScalarValue.beq_iff.2 h⟩
    | composite type components =>
      exact (Bool.and_eq_true _ _).mpr ⟨beq_self_eq_true type, beq_self_eq_true components⟩

lemma Constant.beq_iff {c d : Constant} : (c == d) = true ↔ c.Alike d := by
  obtain ⟨v, n⟩ := c
  obtain ⟨w, m⟩ := d
  constructor
  · intro h
    obtain ⟨hv, hn⟩ := (Bool.and_eq_true _ _).mp h
    exact ⟨eq_of_beq (α := Option String) hn, ConstantValue.beq_iff.1 hv⟩
  · rintro ⟨hn, hv⟩
    exact (Bool.and_eq_true _ _).mpr ⟨ConstantValue.beq_iff.2 hv, beq_iff_eq.2 hn⟩

instance : EquivBEq Constant where
  rfl := Constant.beq_iff.2 (.refl _)
  symm h := Constant.beq_iff.2 (Constant.beq_iff.1 h).symm
  trans h h' := Constant.beq_iff.2 ((Constant.beq_iff.1 h).trans (Constant.beq_iff.1 h'))

end Equality

end ShaderLayout
