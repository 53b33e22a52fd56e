import ShaderLayout.Proofs.Description.Building
import ShaderLayout.Proofs.Description.Evaluation
import ShaderLayout.Proofs.Layout.Filling

/-!
Tables and evaluation side by side. A table is settled when all its types are laid out and every name
means the same in it as in the environment; a verdict says that it still is, or which cause comes first.
-/

namespace ShaderLayout

def Shape.scalar? : Shape → Option Scalar
  | .scalar s => some s
  | _ => none

namespace Description

open Number Layout

inductive Explains : Cause → LayoutError → Prop
  | lengthNotInteger (array constant : Handle) (found : ConstantValue) :
      Explains .lengthNotInteger (.lengthNotInteger array constant found)
  | zeroAlignment (h : Handle) (variant : String) : Explains .zeroAlignment (.zeroAlignment h variant)
  | sizeOverflow (h : Handle) (variant : String) (size : Int) :
      Explains (.sizeOverflow size) (.sizeOverflow h variant size)

inductive Agrees {α : Type} : Except LayoutError α → Except Cause α → Prop
  | ok (a : α) : Agrees (.ok a) (.ok a)
  | error {e : LayoutError} {c : Cause} (h : Explains c e) : Agrees (.error e) (.error c)

lemma Agrees.bind {α β : Type} {x : Except LayoutError α} {y : Except Cause α}
    {f : α → Except LayoutError β} {g : α → Except Cause β} (h : Agrees x y)
    (hf : ∀ a, Agrees (f a) (g a)) : Agrees (x >>= f) (y >>= g) := by
  cases h with
  | ok a => exact hf a
  | error h => exact .error h

lemma Agrees.ofType {ls : Layouts} {constants : Arena Constant} {h : Handle} {type : GpuType} {o : Outcome}
    (hs : Agrees (ofShape ls constants h type.shape) o) :
    Agrees (ofType ls constants h type) (checked o) := by
  refine hs.bind fun l => ?_
  have hw : wordLimit ≤ l.size ↔ 2 ^ 32 - 1 < l.size := by
    simp only [wordLimit]
    omega
  by_cases ha : l.alignment = 0
  · rw [if_pos ha, if_pos ha]
    exact .error (.zeroAlignment ..)
  · rw [if_neg ha, if_neg ha]
    by_cases hs : wordLimit ≤ l.size
    · rw [if_pos hs, if_pos (hw.mp hs)]
      exact .error (.sizeOverflow ..)
    · rw [if_neg hs, if_neg (hs ∘ hw.mpr)]
      exact .ok l

section Causes

lemma firstCause_append (os os' : List Outcome) :
    firstCause (os ++ os') = (firstCause os).or (firstCause os') := by
  simp [firstCause, List.findSome?_append]

lemma firstCause_singleton (o : Outcome) : firstCause [o] = cause? o := by
  cases o <;> rfl

lemma firstCause_eq_none_iff {os : List Outcome} : firstCause os = none ↔ ∀ o ∈ os, ∃ l, o = .ok l := by
  simp only [firstCause, List.findSome?_eq_none_iff]
  constructor
  · intro h o ho
    cases o with
    | ok l => exact ⟨l, rfl⟩
    | error c => cases h _ ho
  · rintro h o ho
    obtain ⟨l, rfl⟩ := h o ho
    rfl

end Causes

inductive Denotes (types : Arena GpuType) (ls : Layouts) (h : Handle) : Meaning → Prop
  | intro {type : GpuType} {l : Layout} (ht : types.get? h = some type) (hl : ls[h.index]? = some l) :
      Denotes types ls h ⟨.ok l, type.shape.scalar?⟩

def DenotesLength (constants : Arena Constant) (c : Handle) (n : Option Int) : Prop :=
  ∃ v, constants.get? c = some v ∧ v.value.integer? = n

structure Settled (env : Env) (t : Table) (ls : Layouts) : Prop where
  laid : Prefix t.types t.constants t.types.size ls
  types : ∀ name, Option.Rel (Denotes t.types ls) (t.typeNames.lookup name) (env.types.lookup name)
  constants : ∀ name,
    Option.Rel (DenotesLength t.constants) (t.constantNames.lookup name) (env.constants.lookup name)

inductive Verdict (env : Env) (t : Table) (ls : Layouts) (good : Layouts → Prop) : Option Cause → Prop
  | settled {ls' : Layouts} (hk : Keeps ls ls') (hs : Settled env t ls') (hg : good ls') :
      Verdict env t ls good none
  | broken {k : Nat} {ls' : Layouts} {e : LayoutError} {c : Cause} (hf : FailsAt t.types t.constants k ls' e)
      (he : Explains c e) : Verdict env t ls good (some c)

def Follows {α : Type} (env : Env) (c : Option Cause) (good : α → Table → Layouts → Prop) (s : Progress)
    (r : Option α) (s' : Progress) : Prop :=
  ∀ a ls, r = some a → Settled env s.table ls → Verdict env s'.table ls (good a s'.table) c

lemma option_rel_imp {α β : Type} {R R' : α → β → Prop} (h : ∀ a b, R a b → R' a b) {x : Option α}
    {y : Option β} (hr : Option.Rel R x y) : Option.Rel R' x y := by
  cases hr with
  | none => exact .none
  | some hr => exact .some (h _ _ hr)

lemma option_rel_some {α β : Type} {R : α → β → Prop} {a : α} {y : Option β} (h : Option.Rel R (some a) y) :
    ∃ b, y = some b ∧ R a b := by
  cases h with
  | some h => exact ⟨_, rfl, h⟩

lemma option_rel_none {α β : Type} {R : α → β → Prop} {y : Option β} (h : Option.Rel R none y) :
    y = none := by
  cases h
  rfl

lemma option_rel_append {α β : Type} {R : α → β → Prop} {name : String} {xs : List (String × α)}
    {ys : List (String × β)} (h : Option.Rel R (xs.lookup name) (ys.lookup name)) (key : String)
    {a : α} {b : β} (hab : R a b) :
    Option.Rel R ((xs ++ [(key, a)]).lookup name) ((ys ++ [(key, b)]).lookup name) := by
  rw [List.lookup_append, List.lookup_append]
  generalize xs.lookup name = x at h ⊢
  generalize ys.lookup name = y at h ⊢
  cases h with
  | some h => exact .some h
  | none =>
    by_cases hn : name = key
    · simp only [List.lookup, hn, beq_self_eq_true, Option.none_or]
      exact .some hab
    · simp only [List.lookup, beq_eq_false_iff_ne.mpr hn, Option.none_or]
      exact .none

section Growth

variable {env : Env} {s s' : Progress} {ls ls' : Layouts}

lemma Denotes.mono {types types' : Arena GpuType} (ht : types.toList <+: types'.toList) (hk : Keeps ls ls')
    {h : Handle} {m : Meaning} (hd : Denotes types ls h m) : Denotes types' ls' h m := by
  obtain ⟨h1, h2⟩ := hd
  exact ⟨Arena.get?_mono ht h1, hk _ _ h2⟩

lemma DenotesLength.mono {constants constants' : Arena Constant} (hc : constants.toList <+: constants'.toList)
    {c : Handle} {n : Option Int} (hd : DenotesLength constants c n) : DenotesLength constants' c n := by
  obtain ⟨v, hv, hn⟩ := hd
  exact ⟨v, Arena.get?_mono hc hv, hn⟩

lemma Settled.grow (hs : Settled env s.table ls) (ha : Adds s s') (hk : Keeps ls ls')
    (hp : Prefix s'.table.types s'.table.constants s'.table.types.size ls') : Settled env s'.table ls' := by
  refine ⟨hp, fun name => ?_, fun name => ?_⟩
  · rw [ha.typeNames]
    exact option_rel_imp (fun _ _ hd => hd.mono ha.types hk) (hs.types name)
  · rw [ha.constantNames]
    exact option_rel_imp (fun _ _ hd => hd.mono ha.constants) (hs.constants name)

lemma Explains.refuses_mono {c : Cause} {e : LayoutError} (hx : Explains c e)
    {constants constants' : Arena Constant} (hc : constants.toList <+: constants'.toList) {h : Handle} {type : GpuType}
    (he : Refuses ls constants h type e) : Refuses ls constants' h type e := by
  have hc' : ∀ h v, constants.get? h = some v → constants'.get? h = some v := fun _ _ => Arena.get?_mono hc
  cases he with
  | zeroAlignment hl ha => exact .zeroAlignment (hl.mono (Keeps.refl ls) hc') ha
  | sizeOverflow hl ha hs => exact .sizeOverflow (hl.mono (Keeps.refl ls) hc') ha hs
  | raised he =>
    apply Refuses.raised
    generalize type.shape = shape at he
    cases he with
    | lengthNotInteger hv hn => exact .lengthNotInteger (hc' _ _ hv) hn
    | lengthMissing | elementMissing | memberMissing => cases hx

lemma Explains.failsAt_mono {c : Cause} {e : LayoutError} (hx : Explains c e) {t t' : Table}
    (ht : t.types.toList <+: t'.types.toList) (hc : t.constants.toList <+: t'.constants.toList) {k : Nat}
    (hf : FailsAt t.types t.constants k ls e) : FailsAt t'.types t'.constants k ls e := by
  obtain ⟨hp, type, hk, he⟩ := hf
  exact ⟨hp.mono ht hc, type, Arena.get?_mono ht hk, hx.refuses_mono hc he⟩

end Growth

section Verdicts

variable {env : Env} {t : Table} {ls : Layouts} {P Q : Layouts → Prop}

lemma Verdict.imp {c : Option Cause} (h : Verdict env t ls P c) (hg : ∀ ls', Keeps ls ls' → P ls' → Q ls') :
    Verdict env t ls Q c := by
  cases h with
  | settled hk hs hp => exact .settled hk hs (hg _ hk hp)
  | broken hf he => exact .broken hf he

lemma Verdict.later {env' : Env} {t' : Table} {c c' : Option Cause} (h : Verdict env t ls P c)
    (ht : t.types.toList <+: t'.types.toList) (hc : t.constants.toList <+: t'.constants.toList)
    (hn : ∀ ls', Settled env t ls' → P ls' → Verdict env' t' ls' Q c') :
    Verdict env' t' ls Q (c.or c') := by
  cases h with
  | broken hf he => exact .broken (he.failsAt_mono ht hc hf) he
  | settled hk hs hp =>
    rw [Option.none_or]
    cases hn _ hs hp with
    | settled hk' hs' hq => exact .settled (hk.trans hk') hs' hq
    | broken hf he => exact .broken hf he

lemma Follows.none {α : Type} {c : Option Cause} {good : α → Table → Layouts → Prop} {s s' : Progress} :
    Follows env c good s .none s' := by
  intro a ls ha
  cases ha

lemma Follows.of_table {α : Type} {c : Option Cause} {good : α → Table → Layouts → Prop} {s₀ s s' : Progress}
    {r : Option α} (h : Follows env c good s r s') (ht : s.table = s₀.table) : Follows env c good s₀ r s' :=
  fun a ls ha hs => h a ls ha (ht ▸ hs)

lemma Follows.still {α : Type} {good : α → Table → Layouts → Prop} {s s' : Progress} {r : Option α}
    (h : ∀ a, r = some a → s'.table = s.table ∧ ∀ ls, good a s.table ls) : Follows env .none good s r s' := by
  intro a ls ha hs
  obtain ⟨ht, hg⟩ := h a ha
  rw [ht]
  exact .settled (Keeps.refl ls) hs (hg ls)

end Verdicts

end Description

end ShaderLayout
