import ShaderLayout.Padded.Lowering
import ShaderLayout.Proofs.Layout.Rules

/-!
What a handle lowers to, said without a cache. A lowering whose cache holds only such pairs returns
such a type and keeps the cache that way.
-/

namespace ShaderLayout.Padded

open Layout (Keeps placeAll_mono resolve_mono)

structure Slot where
  gap : List Padded
  element : Padded

def Slot.elements (s : Slot) : List Padded := s.gap ++ [s.element]

variable {types : Arena GpuType} {t : Layouts}

inductive Fills (R : Handle → Padded → Prop) (t : Layouts) :
    Int → List (Placement × StructMember) → List Slot → Int → Prop
  | nil (offset : Int) : Fills R t offset [] [] offset
  | cons {offset stop : Int} {p : Placement} {m : StructMember} {rest : List (Placement × StructMember)}
      {slots : List Slot} {l : Layout} {q : Padded} (hl : t.resolve m.type = .ok l) (hq : R m.type q)
      (hp : p.size ≤ Placement.largestSize) (hr : Fills R t p.stop rest slots stop) :
      Fills R t offset ((p, m) :: rest)
        (⟨if offset < p.start then [bytes (p.start - offset)] else [], fit q l.size p.size⟩ :: slots) stop

inductive LowersShape (R : Handle → Padded → Prop) (t : Layouts) (h : Handle) : Shape → Padded → Prop
  | scalar {s : Scalar} {p : Padded} (hp : ofScalar s = .ok p) : LowersShape R t h (.scalar s) p
  | vector {n : VectorSize} {c : Scalar} {p : Padded} (hp : ofScalar c = .ok p) :
      LowersShape R t h (.vector n c) (.array n.toNat p)
  | matrix {columns rows : VectorSize} {width : Int} {p : Padded} (hp : ofScalar ⟨.float, width⟩ = .ok p) :
      LowersShape R t h (.matrix columns rows width) (.array columns.toNat (.array rows.toNat p))
  | pointer (base : Handle) : LowersShape R t h (.pointer base) Padded.pointer
  | valuePointer (n : Option VectorSize) (s : Scalar) : LowersShape R t h (.valuePointer n s) Padded.pointer
  | array {base : Handle} {length : ArrayLength} {stride : Option Int} {l b : Layout} {q : Padded}
      (hl : t.resolve h = .ok l) (hq : R base q) (hb : t.resolve base = .ok b) :
      LowersShape R t h (.array base length stride)
        (.array (l.size.fdiv l.alignment) (fit q b.size l.alignment))
  | struct {members : List StructMember} {ps : List Placement} {slots : List Slot} {stop : Int}
      {l : Layout} (hp : Layout.placements t members = .ok ps) (hs : Fills R t 0 (ps.zip members) slots stop)
      (hl : t.resolve h = .ok l) :
      LowersShape R t h (.struct members)
        (.packed (slots.flatMap Slot.elements ++ if stop < l.size then [bytes (l.size - stop)] else []))
  | image (dimension : ImageDimension) (arrayed : Bool) : LowersShape R t h (.image dimension arrayed) .empty
  | sampler (comparison : Bool) : LowersShape R t h (.sampler comparison) .empty

def LowersWithin (types : Arena GpuType) (t : Layouts) : Nat → Handle → Padded → Prop
  | 0, _, _ => False
  | depth + 1, h, p =>
    ∃ type, types.get? h = some type ∧ LowersShape (LowersWithin types t depth) t h type.shape p

/-- What a handle lowers to, in a nesting of any depth. -/
def Lowers (types : Arena GpuType) (t : Layouts) (h : Handle) (p : Padded) : Prop :=
  ∃ depth, LowersWithin types t depth h p

section Depth

variable {R R' : Handle → Padded → Prop}

lemma Fills.mono {t' : Layouts} (hk : Keeps t t') (hR : ∀ h p, R h p → R' h p) {offset stop : Int}
    {pms : List (Placement × StructMember)} {slots : List Slot} (hs : Fills R t offset pms slots stop) :
    Fills R' t' offset pms slots stop := by
  induction hs with
  | nil => exact .nil _
  | cons hl hq hp _ ih => exact .cons (resolve_mono hk hl) (hR _ _ hq) hp ih

lemma LowersShape.mono {t' : Layouts} (hk : Keeps t t') (hR : ∀ h p, R h p → R' h p) {h : Handle} {s : Shape}
    {p : Padded} (hs : LowersShape R t h s p) : LowersShape R' t' h s p := by
  cases hs with
  | scalar hp => exact .scalar hp
  | vector hp => exact .vector hp
  | matrix hp => exact .matrix hp
  | pointer base => exact .pointer base
  | valuePointer n s => exact .valuePointer n s
  | array hl hq hb => exact .array (resolve_mono hk hl) (hR _ _ hq) (resolve_mono hk hb)
  | struct hp hs hl => exact .struct (placeAll_mono hk hp) (hs.mono hk hR) (resolve_mono hk hl)
  | image dimension arrayed => exact .image dimension arrayed
  | sampler comparison => exact .sampler comparison

lemma LowersWithin.mono {types' : Arena GpuType} {t' : Layouts}
    (ht : ∀ h type, types.get? h = some type → types'.get? h = some type) (hk : Keeps t t') {d d' : Nat}
    (hd : d ≤ d') {h : Handle} {p : Padded} (hp : LowersWithin types t d h p) : LowersWithin types' t' d' h p := by
  induction d generalizing d' h p with
  | zero => exact hp.elim
  | succ d ih =>
    obtain ⟨d', rfl⟩ : ∃ k, d' = k + 1 := ⟨d' - 1, by omega⟩
    obtain ⟨type, htype, hs⟩ := hp
    exact ⟨type, ht h type htype, hs.mono hk fun _ _ hq => ih (by omega) hq⟩

lemma LowersWithin.deepen {d d' : Nat} (hd : d ≤ d') {h : Handle} {p : Padded} (hp : LowersWithin types t d h p) :
    LowersWithin types t d' h p :=
  hp.mono (fun _ _ h => h) (Keeps.refl t) hd

lemma Lowers.mono {types' : Arena GpuType} {t' : Layouts}
    (ht : ∀ h type, types.get? h = some type → types'.get? h = some type) (hk : Keeps t t') {h : Handle}
    {p : Padded} (hp : Lowers types t h p) : Lowers types' t' h p := by
  obtain ⟨d, hp⟩ := hp
  exact ⟨d, hp.mono ht hk le_rfl⟩

lemma Fills.bounded {offset stop : Int} {pms : List (Placement × StructMember)} {slots : List Slot}
    (hs : Fills (Lowers types t) t offset pms slots stop) :
    ∃ d, Fills (LowersWithin types t d) t offset pms slots stop := by
  induction hs with
  | nil => exact ⟨0, .nil _⟩
  | cons hl hq hp _ ih =>
    obtain ⟨d, hq⟩ := hq
    obtain ⟨d', hr⟩ := ih
    exact ⟨max d d', .cons hl (hq.deepen (le_max_left d d')) hp
      (hr.mono (Keeps.refl t) fun _ _ h => h.deepen (le_max_right d d'))⟩

lemma LowersShape.bounded {h : Handle} {s : Shape} {p : Padded}
    (hs : LowersShape (Lowers types t) t h s p) : ∃ d, LowersShape (LowersWithin types t d) t h s p := by
  cases hs with
  | scalar hp => exact ⟨0, .scalar hp⟩
  | vector hp => exact ⟨0, .vector hp⟩
  | matrix hp => exact ⟨0, .matrix hp⟩
  | pointer base => exact ⟨0, .pointer base⟩
  | valuePointer n s => exact ⟨0, .valuePointer n s⟩
  | array hl hq hb =>
    obtain ⟨d, hq⟩ := hq
    exact ⟨d, .array hl hq hb⟩
  | struct hp hs hl =>
    obtain ⟨d, hs⟩ := hs.bounded
    exact ⟨d, .struct hp hs hl⟩
  | image dimension arrayed => exact ⟨0, .image dimension arrayed⟩
  | sampler comparison => exact ⟨0, .sampler comparison⟩

lemma lowers_iff {h : Handle} {p : Padded} :
    Lowers types t h p ↔
      ∃ type, types.get? h = some type ∧ LowersShape (Lowers types t) t h type.shape p := by
  constructor
  · rintro ⟨d, hp⟩
    cases d with
    | zero => exact hp.elim
    | succ d =>
      obtain ⟨type, ht, hs⟩ := hp
      exact ⟨type, ht, hs.mono (Keeps.refl t) fun _ _ hq => ⟨d, hq⟩⟩
  · rintro ⟨type, ht, hs⟩
    obtain ⟨d, hs⟩ := hs.bounded
    exact ⟨d + 1, type, ht, hs⟩

end Depth

section Unique

variable {R : Handle → Padded → Prop} (hR : ∀ h p q, R h p → R h q → p = q)

include hR

lemma Fills.unique {offset stop stop' : Int} {pms : List (Placement × StructMember)} {slots slots' : List Slot}
    (hs : Fills R t offset pms slots stop) (hs' : Fills R t offset pms slots' stop') :
    slots = slots' ∧ stop = stop' := by
  induction hs generalizing slots' stop' with
  | nil =>
    cases hs'
    exact ⟨rfl, rfl⟩
  | cons hl hq _ _ ih =>
    cases hs' with
    | cons hl' hq' _ hr' =>
      obtain rfl := Except.ok.inj (hl.symm.trans hl')
      obtain rfl := hR _ _ _ hq hq'
      obtain ⟨rfl, rfl⟩ := ih hr'
      exact ⟨rfl, rfl⟩

lemma LowersShape.unique {h : Handle} {s : Shape} {p q : Padded} (hp : LowersShape R t h s p)
    (hq : LowersShape R t h s q) : p = q := by
  cases hp with
  | scalar hp =>
    cases hq with
    | scalar hq => exact Except.ok.inj (hp.symm.trans hq)
  | vector hp =>
    cases hq with
    | vector hq => rw [Except.ok.inj (hp.symm.trans hq)]
  | matrix hp =>
    cases hq with
    | matrix hq => rw [Except.ok.inj (hp.symm.trans hq)]
  | array hl hp hb =>
    cases hq with
    | array hl' hq hb' =>
      obtain rfl := Except.ok.inj (hl.symm.trans hl')
      obtain rfl := Except.ok.inj (hb.symm.trans hb')
      rw [hR _ _ _ hp hq]
  | struct hps hs hl =>
    cases hq with
    | struct hps' hs' hl' =>
      obtain rfl := Except.ok.inj (hps.symm.trans hps')
      obtain rfl := Except.ok.inj (hl.symm.trans hl')
      obtain ⟨rfl, rfl⟩ := hs.unique hR hs'
      rfl
  | _ =>
    cases hq
    rfl

omit hR

lemma LowersWithin.unique {d : Nat} {h : Handle} {p q : Padded} (hp : LowersWithin types t d h p)
    (hq : LowersWithin types t d h q) : p = q := by
  induction d generalizing h p q with
  | zero => exact hp.elim
  | succ d ih =>
    obtain ⟨type, ht, hp⟩ := hp
    obtain ⟨type', ht', hq⟩ := hq
    obtain rfl := Option.some.inj (ht.symm.trans ht')
    exact LowersShape.unique (R := LowersWithin types t d) (fun _ _ _ => ih) hp hq

lemma Lowers.unique {h : Handle} {p q : Padded} (hp : Lowers types t h p) (hq : Lowers types t h q) : p = q := by
  obtain ⟨d, hp⟩ := hp
  obtain ⟨d', hq⟩ := hq
  exact (hp.deepen (le_max_left d d')).unique (hq.deepen (le_max_right d d'))

end Unique

def Returns {α : Type} (S : Cache → Prop) (m : Lower α) (Q : α → Prop) : Prop :=
  ∀ c, S c → S (m.run.run c).2 ∧ ∀ a, (m.run.run c).1 = .ok a → Q a

namespace Returns

variable {α β : Type} {S : Cache → Prop} {P : α → Prop} {Q : β → Prop}

lemma pure {a : α} (h : P a) : Returns S (Pure.pure a) P := by
  intro c hc
  refine ⟨hc, fun b hb => ?_⟩
  cases hb
  exact h

lemma throw (f : Failure) : Returns S (MonadExcept.throw f : Lower α) P :=
  fun _ hc => ⟨hc, by simp⟩

lemma get : Returns S (MonadState.get : Lower Cache) S := by
  intro c hc
  refine ⟨hc, fun b hb => ?_⟩
  cases hb
  exact hc

lemma modify {g : Cache → Cache} (hg : ∀ c, S c → S (g c)) :
    Returns S (modifyThe Cache g : Lower Unit) fun _ => True :=
  fun c hc => ⟨hg c hc, fun _ _ => trivial⟩

lemma run_bind (m : Lower α) (f : α → Lower β) (c : Cache) :
    (m >>= f).run.run c = (match m.run.run c with
      | (.ok a, c') => (f a).run.run c'
      | (.error e, c') => (.error e, c')) := by
  simp only [ExceptT.run_bind, StateT.run_bind]
  rcases m.run.run c with ⟨_ | a, c'⟩ <;> rfl

lemma bind {m : Lower α} {f : α → Lower β} (hm : Returns S m P) (hf : ∀ a, P a → Returns S (f a) Q) :
    Returns S (m >>= f) Q := by
  intro c hc
  obtain ⟨hs, hp⟩ := hm c hc
  rw [run_bind]
  cases hr : m.run.run c with
  | mk r c' =>
    rw [hr] at hs hp
    cases r with
    | error e => exact ⟨hs, by simp⟩
    | ok a => exact hf a (hp a rfl) c' hs

lemma ofResult (e : Except LayoutError α) : Returns S (Lower.ofResult e) fun a => e = .ok a := by
  cases e with
  | ok a => exact Returns.pure rfl
  | error e => exact Returns.throw _

lemma ofCounted (e : Except Failure α) : Returns S (Lower.ofCounted e) fun a => e = .ok a := by
  cases e with
  | ok a => exact Returns.pure rfl
  | error e => exact Returns.throw _

end Returns

section Cached

variable {S : Cache → Prop} {R : Handle → Padded → Prop} {recur : Handle → Lower Padded}

lemma countedSize_eq_ok_iff {p : Placement} {n : Int} :
    p.countedSize = .ok n ↔ p.size ≤ Placement.largestSize ∧ p.size = n := by
  rw [Placement.countedSize]
  split <;> simp [*]

lemma lowerMembers_returns (hr : ∀ h, Returns S (recur h) (R h)) (offset : Int)
    (pms : List (Placement × StructMember)) :
    Returns S (lowerMembers recur t offset pms) fun r =>
      ∃ slots, r.1 = slots.flatMap Slot.elements ∧ Fills R t offset pms slots r.2 := by
  induction pms generalizing offset with
  | nil => exact Returns.pure ⟨[], rfl, .nil offset⟩
  | cons pm rest ih =>
    obtain ⟨p, m⟩ := pm
    refine (Returns.ofResult _).bind fun l hl => ?_
    refine (hr m.type).bind fun q hq => ?_
    refine (Returns.ofCounted _).bind fun n hn => ?_
    refine (ih p.stop).bind fun r hs => ?_
    obtain ⟨slots, he, hs⟩ := hs
    obtain ⟨hp, rfl⟩ := countedSize_eq_ok_iff.1 hn
    refine Returns.pure ⟨_, ?_, .cons hl hq hp hs⟩
    simp [he, Slot.elements]

lemma lowerShape_returns (hr : ∀ h, Returns S (recur h) (R h)) (h : Handle) (s : Shape) :
    Returns S (lowerShape recur t h s) (LowersShape R t h s) := by
  cases s with
  | scalar s =>
    intro c hc
    obtain ⟨hs, hp⟩ := Returns.ofCounted (S := S) (ofScalar s) c hc
    exact ⟨hs, fun p h => .scalar (hp p h)⟩
  | vector n c => exact (Returns.ofCounted _).bind fun p hp => Returns.pure (.vector hp)
  | matrix columns rows width => exact (Returns.ofCounted _).bind fun p hp => Returns.pure (.matrix hp)
  | pointer base => exact Returns.pure (.pointer base)
  | valuePointer n s => exact Returns.pure (.valuePointer n s)
  | array base length stride =>
    refine (Returns.ofResult _).bind fun l hl => ?_
    refine (hr base).bind fun q hq => ?_
    exact (Returns.ofResult _).bind fun b hb => Returns.pure (.array hl hq hb)
  | struct members =>
    refine (Returns.ofResult _).bind fun ps hp => ?_
    refine (lowerMembers_returns hr 0 _).bind fun r hs => ?_
    obtain ⟨slots, he, hs⟩ := hs
    refine (Returns.ofResult _).bind fun l hl => ?_
    rw [he]
    exact Returns.pure (.struct hp hs hl)
  | image dimension arrayed => exact Returns.pure (.image dimension arrayed)
  | sampler comparison => exact Returns.pure (.sampler comparison)

def Sound (types : Arena GpuType) (t : Layouts) (c : Cache) : Prop :=
  ∀ h p, c.lookup h = some p → Lowers types t h p

lemma Sound.nil : Sound types t [] := by
  simp [Sound]

lemma Sound.cons {c : Cache} {h : Handle} {p : Padded} (hc : Sound types t c) (hp : Lowers types t h p) :
    Sound types t ((h, p) :: c) := by
  intro h' p' he
  rw [List.lookup_cons] at he
  split at he
  · next hh =>
    cases he
    exact beq_iff_eq.1 hh ▸ hp
  · exact hc h' p' he

lemma lowerWithin_returns (types : Arena GpuType) (t : Layouts) (depth : Nat) (h : Handle) :
    Returns (Sound types t) (lowerWithin types t depth h) (Lowers types t h) := by
  induction depth generalizing h with
  | zero => exact Returns.throw _
  | succ depth ih =>
    refine Returns.get.bind fun c hc => ?_
    cases hl : c.lookup h with
    | some p => exact Returns.pure (hc h p hl)
    | none =>
      cases ht : types.get? h with
      | none => exact Returns.throw _
      | some type =>
        refine (lowerShape_returns ih h type.shape).bind fun p hs => ?_
        have hp := lowers_iff.2 ⟨type, ht, hs⟩
        exact (Returns.modify fun c hc => hc.cons hp).bind fun _ _ => Returns.pure hp

lemma lower_returns (types : Arena GpuType) (t : Layouts) (h : Handle) :
    Returns (Sound types t) (lower types t h) (Lowers types t h) :=
  lowerWithin_returns types t _ h

end Cached

end ShaderLayout.Padded
