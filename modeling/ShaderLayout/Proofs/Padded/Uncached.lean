import ShaderLayout.Proofs.Padded.Meaning

/-!
Lowering without a cache. A type is lowered again wherever it occurs, and a lowering over a sound cache
gives the same result: the cache saves work and nothing else.
-/

namespace ShaderLayout.Padded

variable {types : Arena GpuType} {t : Layouts}

def uncachedWithin (types : Arena GpuType) (t : Layouts) : Nat → Handle → Lower Padded
  | 0, _ => throw .endless
  | depth + 1, h =>
    match types.get? h with
    | none => throw (.ofError (.notInArena h types.size))
    | some type => lowerShape (uncachedWithin types t depth) t h type.shape

def uncached (types : Arena GpuType) (t : Layouts) (h : Handle) : Except Failure Padded :=
  ((uncachedWithin types t (types.size + 1) h).run.run []).1

/-- Unless it runs out of depth, `m` ends as `m'` does. -/
def Below {α : Type} (S S' : Cache → Prop) (m m' : Lower α) : Prop :=
  ∀ c c', S c → S' c' → (m.run.run c).1 ≠ .error .endless → (m'.run.run c').1 = (m.run.run c).1

abbrev Free : Cache → Prop := fun _ => True

namespace Below

variable {α β : Type} {S S' S'' : Cache → Prop} {P P' : α → Prop} {m m' m'' : Lower α}

lemma pure (a : α) : Below S S' (Pure.pure a) (Pure.pure a) :=
  fun _ _ _ _ _ => rfl

lemma throw (e : Failure) : Below S S' (MonadExcept.throw e : Lower α) (MonadExcept.throw e) :=
  fun _ _ _ _ _ => rfl

lemma endless : Below S S' (MonadExcept.throw .endless) m' :=
  fun _ _ _ _ hn => (hn rfl).elim

lemma ofResult (x : Except LayoutError α) : Below S S' (Lower.ofResult x) (Lower.ofResult x) := by
  cases x with
  | ok a => exact Below.pure a
  | error e => exact Below.throw _

lemma ofCounted (x : Except Failure α) : Below S S' (Lower.ofCounted x) (Lower.ofCounted x) := by
  cases x with
  | ok a => exact Below.pure a
  | error e => exact Below.throw e

lemma bind {f f' : α → Lower β} (hm : Below S S' m m') (hr : Returns S m P) (hr' : Returns S' m' P')
    (hf : ∀ a, P a → P' a → Below S S' (f a) (f' a)) : Below S S' (m >>= f) (m' >>= f') := by
  intro c c' hc hc' hn
  have hm := hm c c' hc hc'
  obtain ⟨hs, hp⟩ := hr c hc
  obtain ⟨hs', hp'⟩ := hr' c' hc'
  rw [Returns.run_bind] at hn ⊢
  rw [Returns.run_bind]
  cases hrun : m.run.run c with
  | mk r d =>
    cases hrun' : m'.run.run c' with
    | mk r' d' =>
      rw [hrun] at hm hs hp hn
      rw [hrun'] at hm hs' hp'
      cases r with
      | error e =>
        have he : e ≠ .endless := fun h => hn (congrArg Except.error h)
        obtain rfl : r' = .error e := hm fun h => he (Except.error.inj h)
        rfl
      | ok a =>
        obtain rfl : r' = .ok a := hm (by simp)
        exact hf a (hp a rfl) (hp' a rfl) d d' hs hs' hn

lemma trans (h0 : S' []) (hm : Below S S' m m') (hm' : Below S' S'' m' m'') : Below S S'' m m'' := by
  intro c c'' hc hc'' hn
  have he := hm c [] hc h0 hn
  exact (hm' [] c'' h0 hc'' (he ▸ hn)).trans he

lemma eq (hm : Below S S' m m') (hm' : Below S' S m' m) {c c' : Cache} (hc : S c) (hc' : S' c') :
    (m.run.run c).1 = (m'.run.run c').1 := by
  by_cases hn : (m.run.run c).1 = .error .endless
  · by_cases hn' : (m'.run.run c').1 = .error .endless
    · rw [hn, hn']
    · exact hm' c' c hc' hc hn'
  · exact (hm c c' hc hc' hn).symm

end Below

section Shape

variable {S S' : Cache → Prop} {R R' : Handle → Padded → Prop} {recur recur' : Handle → Lower Padded}

section Compare

variable (hr : ∀ h, Returns S (recur h) (R h)) (hr' : ∀ h, Returns S' (recur' h) (R' h))
  (hb : ∀ h, Below S S' (recur h) (recur' h))

include hr hr' hb

lemma lowerMembers_below (offset : Int) (pms : List (Placement × StructMember)) :
    Below S S' (lowerMembers recur t offset pms) (lowerMembers recur' t offset pms) := by
  induction pms generalizing offset with
  | nil => exact Below.pure _
  | cons pm rest ih =>
    obtain ⟨p, m⟩ := pm
    refine (Below.ofResult _).bind (Returns.ofResult _) (Returns.ofResult _) fun l _ _ => ?_
    refine (hb m.type).bind (hr m.type) (hr' m.type) fun q _ _ => ?_
    refine (Below.ofCounted _).bind (Returns.ofCounted _) (Returns.ofCounted _) fun n _ _ => ?_
    refine (ih p.stop).bind (lowerMembers_returns hr p.stop rest) (lowerMembers_returns hr' p.stop rest) ?_
    intro r _ _
    exact Below.pure _

lemma lowerShape_below (h : Handle) (s : Shape) :
    Below S S' (lowerShape recur t h s) (lowerShape recur' t h s) := by
  cases s with
  | scalar s => exact Below.ofCounted _
  | vector n c =>
    exact (Below.ofCounted _).bind (Returns.ofCounted _) (Returns.ofCounted _) fun p _ _ => Below.pure _
  | matrix columns rows width =>
    exact (Below.ofCounted _).bind (Returns.ofCounted _) (Returns.ofCounted _) fun p _ _ => Below.pure _
  | pointer base => exact Below.pure _
  | valuePointer n s => exact Below.pure _
  | array base length stride =>
    refine (Below.ofResult _).bind (Returns.ofResult _) (Returns.ofResult _) fun l _ _ => ?_
    refine (hb base).bind (hr base) (hr' base) fun q _ _ => ?_
    exact (Below.ofResult _).bind (Returns.ofResult _) (Returns.ofResult _) fun b _ _ => Below.pure _
  | struct members =>
    refine (Below.ofResult _).bind (Returns.ofResult _) (Returns.ofResult _) fun ps _ _ => ?_
    refine (lowerMembers_below hr hr' hb 0 _).bind (lowerMembers_returns hr 0 _)
      (lowerMembers_returns hr' 0 _) fun r _ _ => ?_
    exact (Below.ofResult _).bind (Returns.ofResult _) (Returns.ofResult _) fun l _ _ => Below.pure _
  | image dimension arrayed => exact Below.pure _
  | sampler comparison => exact Below.pure _

end Compare

def Gives {α : Type} (m : Lower α) (a : α) : Prop := ∀ c, (m.run.run c).1 = .ok a

namespace Gives

variable {α β : Type}

lemma pure (a : α) : Gives (Pure.pure a) a :=
  fun _ => rfl

lemma ofResult {x : Except LayoutError α} {a : α} (hx : x = .ok a) : Gives (Lower.ofResult x) a := by
  subst hx
  exact Gives.pure a

lemma ofCounted {x : Except Failure α} {a : α} (hx : x = .ok a) : Gives (Lower.ofCounted x) a := by
  subst hx
  exact Gives.pure a

lemma bind {m : Lower α} {f : α → Lower β} {a : α} {b : β} (hm : Gives m a) (hf : Gives (f a) b) :
    Gives (m >>= f) b := by
  intro c
  have hm := hm c
  rw [Returns.run_bind]
  cases hrun : m.run.run c with
  | mk r d =>
    rw [hrun] at hm
    obtain rfl : r = .ok a := hm
    exact hf d

end Gives

lemma Fills.gives (hr : ∀ h p, R h p → Gives (recur h) p) {offset stop : Int}
    {pms : List (Placement × StructMember)} {slots : List Slot} (hs : Fills R t offset pms slots stop) :
    Gives (lowerMembers recur t offset pms) (slots.flatMap Slot.elements, stop) := by
  induction hs with
  | nil => exact Gives.pure _
  | @cons offset stop p m rest slots l q hl hq hp _ ih =>
    rw [lowerMembers]
    refine (Gives.ofResult hl).bind ?_
    refine (hr _ _ hq).bind ?_
    refine (Gives.ofCounted (countedSize_eq_ok_iff.2 ⟨hp, rfl⟩)).bind ?_
    refine ih.bind ?_
    simpa [Slot.elements] using Gives.pure _

lemma LowersShape.gives (hr : ∀ h p, R h p → Gives (recur h) p) {h : Handle} {s : Shape} {p : Padded}
    (hs : LowersShape R t h s p) : Gives (lowerShape recur t h s) p := by
  cases hs with
  | scalar hp => exact Gives.ofCounted hp
  | vector hp => exact (Gives.ofCounted hp).bind (Gives.pure _)
  | matrix hp => exact (Gives.ofCounted hp).bind (Gives.pure _)
  | pointer base => exact Gives.pure _
  | valuePointer n s => exact Gives.pure _
  | array hl hq hb =>
    exact (Gives.ofResult hl).bind ((hr _ _ hq).bind ((Gives.ofResult hb).bind (Gives.pure _)))
  | struct hp hs hl =>
    exact (Gives.ofResult hp).bind ((hs.gives hr).bind ((Gives.ofResult hl).bind (Gives.pure _)))
  | image dimension arrayed => exact Gives.pure _
  | sampler comparison => exact Gives.pure _

end Shape

section Depth

lemma uncachedWithin_returns (types : Arena GpuType) (t : Layouts) (d : Nat) (h : Handle) :
    Returns Free (uncachedWithin types t d h) (LowersWithin types t d h) := by
  induction d generalizing h with
  | zero => exact Returns.throw _
  | succ d ih =>
    rw [uncachedWithin]
    cases ht : types.get? h with
    | none => exact Returns.throw _
    | some type =>
      intro c hc
      obtain ⟨hs, hp⟩ := lowerShape_returns ih h type.shape c hc
      exact ⟨hs, fun p he => ⟨type, ht, hp p he⟩⟩

lemma LowersWithin.gives {d : Nat} {h : Handle} {p : Padded} (hp : LowersWithin types t d h p) :
    Gives (uncachedWithin types t d h) p := by
  induction d generalizing h p with
  | zero => exact hp.elim
  | succ d ih =>
    obtain ⟨type, ht, hs⟩ := hp
    rw [uncachedWithin, ht]
    exact hs.gives fun _ _ hq => ih hq

lemma uncachedWithin_below {d d' : Nat} (hd : d ≤ d') (h : Handle) :
    Below Free Free (uncachedWithin types t d h) (uncachedWithin types t d' h) := by
  induction d generalizing d' h with
  | zero => exact Below.endless
  | succ d ih =>
    obtain ⟨d', rfl⟩ : ∃ k, d' = k + 1 := ⟨d' - 1, by omega⟩
    rw [uncachedWithin, uncachedWithin]
    cases types.get? h with
    | none => exact Below.throw _
    | some type =>
      exact lowerShape_below (uncachedWithin_returns types t d) (uncachedWithin_returns types t d')
        (fun r => ih (by omega) r) h type.shape

lemma uncachedWithin_run (d : Nat) (h : Handle) (c c' : Cache) :
    ((uncachedWithin types t d h).run.run c).1 = ((uncachedWithin types t d h).run.run c').1 :=
  (uncachedWithin_below le_rfl h).eq (uncachedWithin_below le_rfl h) trivial trivial

def Stable (types : Arena GpuType) (t : Layouts) (d : Nat) : Prop :=
  ∀ h, Below Free Free (uncachedWithin types t (d + 1) h) (uncachedWithin types t d h)

lemma Stable.succ {d : Nat} (hs : Stable types t d) : Stable types t (d + 1) := by
  intro h
  rw [uncachedWithin, uncachedWithin]
  cases types.get? h with
  | none => exact Below.throw _
  | some type =>
    exact lowerShape_below (uncachedWithin_returns types t (d + 1)) (uncachedWithin_returns types t d) hs
      h type.shape

open Classical in
noncomputable def settled (types : Arena GpuType) (t : Layouts) (d : Nat) : Finset (Fin types.size) :=
  Finset.univ.filter fun i => ((uncachedWithin types t d ⟨i⟩).run.run []).1 ≠ .error .endless

lemma mem_settled {d : Nat} {i : Fin types.size} :
    i ∈ settled types t d ↔ ((uncachedWithin types t d ⟨i⟩).run.run []).1 ≠ .error .endless := by
  simp [settled]

lemma settled_mono (types : Arena GpuType) (t : Layouts) : Monotone (settled types t) := by
  intro d d' hd i hi
  rw [mem_settled] at hi ⊢
  exact uncachedWithin_below hd ⟨i⟩ [] [] trivial trivial hi ▸ hi

lemma Stable.settled_eq {d : Nat} (hs : Stable types t d) : settled types t (d + 1) = settled types t d := by
  refine (settled_mono types t (Nat.le_succ d)).antisymm' fun i hi => ?_
  rw [mem_settled] at hi ⊢
  exact hs ⟨i⟩ [] [] trivial trivial hi ▸ hi

lemma stable_of_settled {d : Nat} (hs : settled types t (d + 2) ⊆ settled types t (d + 1)) :
    Stable types t (d + 1) := by
  intro h c c' hc hc' hn
  cases ht : types.get? h with
  | none =>
    rw [uncachedWithin, uncachedWithin, ht]
    rfl
  | some type =>
    have hlt : h.index < types.size := Arena.index_lt_of_get? ht
    have hmem : (⟨h.index, hlt⟩ : Fin types.size) ∈ settled types t (d + 1) :=
      hs (mem_settled.2 (uncachedWithin_run (d + 2) h c [] ▸ hn))
    rw [mem_settled, uncachedWithin_run (d + 1) _ [] c'] at hmem
    exact (uncachedWithin_below (Nat.le_succ _) h c' c hc' hc hmem).symm

lemma stable_size (types : Arena GpuType) (t : Layouts) : Stable types t (types.size + 1) := by
  have hmono : Monotone fun d => (settled types t (d + 1)).card := by
    intro d d' hd
    exact Finset.card_le_card (settled_mono types t (Nat.succ_le_succ hd))
  have hbound : ∀ d, (settled types t (d + 1)).card ≤ types.size := by
    intro d
    simpa using Finset.card_le_univ (settled types t (d + 1))
  have hstable : ∀ d, (settled types t (d + 1)).card = (settled types t (d + 2)).card → Stable types t (d + 1) := by
    intro d he
    have hsub := settled_mono types t (Nat.le_succ (d + 1))
    exact stable_of_settled (Finset.eq_of_subset_of_card_le hsub he.ge).ge
  apply hstable
  refine (Nat.stabilises_of_monotone hmono hbound (fun d he => ?_) (Nat.le_succ types.size)).symm
  exact congrArg Finset.card (hstable d he).succ.settled_eq.symm

lemma uncachedWithin_below_size (d : Nat) (h : Handle) :
    Below Free Free (uncachedWithin types t d h) (uncachedWithin types t (types.size + 1) h) := by
  obtain hd | hd := le_total d (types.size + 1)
  · exact uncachedWithin_below hd h
  · have hs : Stable types t d ∧
        ∀ h, Below Free Free (uncachedWithin types t d h) (uncachedWithin types t (types.size + 1) h) := by
      induction d, hd using Nat.le_induction with
      | base => exact ⟨stable_size types t, fun h => uncachedWithin_below le_rfl h⟩
      | succ d _ ih =>
        obtain ⟨hs, hb⟩ := ih
        exact ⟨hs.succ, fun h => (hs h).trans trivial (hb h)⟩
    exact hs.2 h

lemma lowers_iff_uncached {h : Handle} {p : Padded} : Lowers types t h p ↔ uncached types t h = .ok p := by
  constructor
  · rintro ⟨d, hp⟩
    have hr := hp.gives []
    have hb := uncachedWithin_below_size d h [] [] trivial trivial (by rw [hr]; simp)
    exact hb.trans hr
  · intro hp
    exact ⟨_, (uncachedWithin_returns types t _ h [] trivial).2 p hp⟩

end Depth

section Cached

variable {d : Nat} {h : Handle} {c : Cache}

lemma run_get (c : Cache) : (get : Lower Cache).run.run c = (.ok c, c) := rfl

lemma lowerWithin_hit {p : Padded} (hl : c.lookup h = some p) :
    ((lowerWithin types t (d + 1) h).run.run c).1 = .ok p := by
  rw [lowerWithin, Returns.run_bind, run_get]
  simp only [hl]
  rfl

lemma lowerWithin_missing (hl : c.lookup h = none) (ht : types.get? h = none) :
    ((lowerWithin types t (d + 1) h).run.run c).1 = .error (.ofError (.notInArena h types.size)) := by
  rw [lowerWithin, Returns.run_bind, run_get]
  simp only [hl, ht]
  rfl

lemma lowerWithin_new {type : GpuType} (hl : c.lookup h = none) (ht : types.get? h = some type) :
    ((lowerWithin types t (d + 1) h).run.run c).1 =
      ((lowerShape (lowerWithin types t d) t h type.shape).run.run c).1 := by
  rw [lowerWithin, Returns.run_bind, run_get]
  simp only [hl, ht, Returns.run_bind]
  cases (lowerShape (lowerWithin types t d) t h type.shape).run.run c with
  | mk r c' =>
    cases r with
    | error e => rfl
    | ok p => rfl

lemma Sound.uncached {p : Padded} (hc : Sound types t c) (hl : c.lookup h = some p) : uncached types t h = .ok p :=
  lowers_iff_uncached.1 (hc h p hl)

lemma lowerWithin_below (d : Nat) (h : Handle) :
    Below (Sound types t) Free (lowerWithin types t d h) (uncachedWithin types t (types.size + 1) h) := by
  induction d generalizing h with
  | zero => exact Below.endless
  | succ d ih =>
    intro c c' hc hc' hn
    cases hl : c.lookup h with
    | some p =>
      rw [lowerWithin_hit hl, uncachedWithin_run _ h c' []]
      exact hc.uncached hl
    | none =>
      cases ht : types.get? h with
      | none =>
        rw [lowerWithin_missing hl ht, uncachedWithin, ht]
        rfl
      | some type =>
        rw [lowerWithin_new hl ht] at hn ⊢
        have hshape := lowerShape_below (lowerWithin_returns types t d) (uncachedWithin_returns types t _) ih
          h type.shape c c' hc hc' hn
        -- The shape is one level below the handle, so the other side needs the level that changes nothing.
        have hdeep : ((uncachedWithin types t (types.size + 2) h).run.run c').1 =
            ((lowerShape (lowerWithin types t d) t h type.shape).run.run c).1 := by
          rw [uncachedWithin, ht]
          exact hshape
        rw [← hdeep] at hn ⊢
        exact uncachedWithin_below_size _ h c' c' hc' hc' hn

lemma below_lowerWithin (d : Nat) (h : Handle) :
    Below Free (Sound types t) (uncachedWithin types t d h) (lowerWithin types t d h) := by
  induction d generalizing h with
  | zero => exact Below.endless
  | succ d ih =>
    intro c c' hc hc' hn
    cases hl : c'.lookup h with
    | some p =>
      rw [lowerWithin_hit hl, ← hc'.uncached hl]
      exact uncachedWithin_below_size _ h c [] hc trivial hn
    | none =>
      rw [uncachedWithin] at hn ⊢
      cases ht : types.get? h with
      | none =>
        rw [lowerWithin_missing hl ht]
        rfl
      | some type =>
        rw [lowerWithin_new hl ht]
        rw [ht] at hn
        exact lowerShape_below (uncachedWithin_returns types t d) (lowerWithin_returns types t d) ih
          h type.shape c c' hc hc' hn

lemma lower_eq_uncached (hc : Sound types t c) (h : Handle) :
    ((lower types t h).run.run c).1 = uncached types t h :=
  (lowerWithin_below _ h).eq (below_lowerWithin _ h) hc trivial

lemma lower_eq_lowerWithin (hc : Sound types t c) {c' : Cache} (hc' : Sound types t c')
    (hn : ((lowerWithin types t d h).run.run c').1 ≠ .error .endless) :
    ((lower types t h).run.run c).1 = ((lowerWithin types t d h).run.run c').1 := by
  rw [lower_eq_uncached hc]
  exact lowerWithin_below d h c' [] hc' trivial hn

lemma describe_returns (types : Arena GpuType) (t : Layouts) (h : Handle) :
    Returns (Sound types t) (describe types t h) fun s =>
      ∃ p, Lowers types t h p ∧ Failure.requireText p.text? = .ok s := by
  refine (lower_returns types t h).bind fun p hp => ?_
  intro c hc
  obtain ⟨hs, he⟩ := Returns.ofCounted (Failure.requireText p.text?) c hc
  exact ⟨hs, fun s hr => ⟨p, hp, he s hr⟩⟩

lemma describe_eq_bind (c : Cache) (h : Handle) :
    ((describe types t h).run.run c).1 =
      ((lower types t h).run.run c).1.bind fun p => Failure.requireText p.text? := by
  rw [describe, Returns.run_bind]
  cases (lower types t h).run.run c with
  | mk r c' =>
    cases r with
    | error e => rfl
    | ok p =>
      change ((Lower.ofCounted (Failure.requireText p.text?)).run.run c').1 = Failure.requireText p.text?
      cases Failure.requireText p.text? with
      | ok s => rfl
      | error e => rfl

end Cached

end ShaderLayout.Padded
