import ShaderLayout.Proofs.Padded.Meaning

/-!
What can stop a lowering. `Blocks` lists what stops a shape apart from the types it is made of; over an
arena whose references descend, a lowering is stopped by nothing else, and never for want of depth.
-/

namespace ShaderLayout

def Shape.references : Shape → List Handle
  | .array base _ _ => [base]
  | .struct members => members.map StructMember.type
  | _ => []

namespace Padded

def Descends (types : Arena GpuType) : Prop :=
  ∀ h type, types.get? h = some type → ∀ r ∈ type.shape.references, r.index < h.index

inductive Blocks (t : Layouts) (h : Handle) : Shape → Failure → Prop
  | scalar {s : Scalar} {e : Failure} (he : ofScalar s = .error e) : Blocks t h (.scalar s) e
  | vector {n : VectorSize} {c : Scalar} {e : Failure} (he : ofScalar c = .error e) :
      Blocks t h (.vector n c) e
  | matrix {columns rows : VectorSize} {width : Int} {e : Failure} (he : ofScalar ⟨.float, width⟩ = .error e) :
      Blocks t h (.matrix columns rows width) e
  | array {base : Handle} {length : ArrayLength} {stride : Option Int} {e : LayoutError}
      (he : t.resolve h = .error e) : Blocks t h (.array base length stride) (.ofError e)
  | element {base : Handle} {length : ArrayLength} {stride : Option Int} {e : LayoutError}
      (he : t.resolve base = .error e) : Blocks t h (.array base length stride) (.ofError e)
  | placing {members : List StructMember} {e : LayoutError} (he : Layout.placements t members = .error e) :
      Blocks t h (.struct members) (.ofError e)
  | member {members : List StructMember} {m : StructMember} {e : LayoutError} (hm : m ∈ members)
      (he : t.resolve m.type = .error e) : Blocks t h (.struct members) (.ofError e)
  | size {members : List StructMember} {ps : List Placement} {p : Placement} {e : Failure}
      (hps : Layout.placements t members = .ok ps) (hp : p ∈ ps) (he : p.countedSize = .error e) :
      Blocks t h (.struct members) e
  | struct {members : List StructMember} {e : LayoutError} (he : t.resolve h = .error e) :
      Blocks t h (.struct members) (.ofError e)

def Stops {α : Type} (S : Cache → Prop) (m : Lower α) (E : Failure → Prop) : Prop :=
  ∀ c, S c → ∀ e, (m.run.run c).1 = .error e → E e

namespace Stops

variable {α β : Type} {S : Cache → Prop} {P : α → Prop} {E : Failure → Prop}

lemma pure (a : α) : Stops S (Pure.pure a) E := by
  intro c _ e he
  cases he

lemma throw {e : Failure} (h : E e) : Stops S (MonadExcept.throw e : Lower α) E := by
  intro c _ e' he
  cases he
  exact h

lemma get : Stops S (MonadState.get : Lower Cache) E := by
  intro c _ e he
  cases he

lemma modify (g : Cache → Cache) : Stops S (modifyThe Cache g : Lower Unit) E := by
  intro c _ e he
  cases he

lemma bind {m : Lower α} {f : α → Lower β} (hr : Returns S m P) (hm : Stops S m E)
    (hf : ∀ a, P a → Stops S (f a) E) : Stops S (m >>= f) E := by
  intro c hc e he
  obtain ⟨hs, hp⟩ := hr c hc
  have hstop := hm c hc
  rw [Returns.run_bind] at he
  cases hrun : m.run.run c with
  | mk r c' =>
    rw [hrun] at he hs hp hstop
    cases r with
    | error e' =>
      cases he
      exact hstop e rfl
    | ok a => exact hf a (hp a rfl) c' hs e he

lemma ofResult {x : Except LayoutError α} (h : ∀ e, x = .error e → E (.ofError e)) :
    Stops S (Lower.ofResult x) E := by
  cases x with
  | ok a => exact Stops.pure a
  | error e => exact Stops.throw (h e rfl)

lemma ofCounted {x : Except Failure α} (h : ∀ e, x = .error e → E e) : Stops S (Lower.ofCounted x) E := by
  cases x with
  | ok a => exact Stops.pure a
  | error e => exact Stops.throw (h e rfl)

end Stops

section Shape

variable {S : Cache → Prop} {R : Handle → Padded → Prop} {E : Failure → Prop}
  {recur : Handle → Lower Padded} {t : Layouts}

lemma lowerMembers_stops (hr : ∀ h, Returns S (recur h) (R h)) {pms : List (Placement × StructMember)}
    (hs : ∀ pm ∈ pms, Stops S (recur pm.2.type) E)
    (hl : ∀ pm ∈ pms, ∀ e, t.resolve pm.2.type = .error e → E (.ofError e))
    (hc : ∀ pm ∈ pms, ∀ e, pm.1.countedSize = .error e → E e) (offset : Int) :
    Stops S (lowerMembers recur t offset pms) E := by
  induction pms generalizing offset with
  | nil => exact Stops.pure _
  | cons pm rest ih =>
    obtain ⟨p, m⟩ := pm
    obtain ⟨hs, hsr⟩ := List.forall_mem_cons.1 hs
    obtain ⟨hl, hlr⟩ := List.forall_mem_cons.1 hl
    obtain ⟨hc, hcr⟩ := List.forall_mem_cons.1 hc
    refine Stops.bind (Returns.ofResult _) (Stops.ofResult hl) fun l _ => ?_
    refine Stops.bind (hr m.type) hs fun q _ => ?_
    refine Stops.bind (Returns.ofCounted _) (Stops.ofCounted hc) fun n _ => ?_
    refine Stops.bind (lowerMembers_returns hr p.stop rest) (ih hsr hlr hcr p.stop) fun r _ => ?_
    exact Stops.pure _

lemma lowerShape_stops (hr : ∀ h, Returns S (recur h) (R h)) {h : Handle} {s : Shape}
    (hs : ∀ r ∈ s.references, Stops S (recur r) E) (hb : ∀ e, Blocks t h s e → E e) :
    Stops S (lowerShape recur t h s) E := by
  cases s with
  | scalar s => exact Stops.ofCounted fun e he => hb e (.scalar he)
  | vector n c =>
    refine Stops.bind (Returns.ofCounted _) (Stops.ofCounted fun e he => hb e (.vector he)) fun p _ => ?_
    exact Stops.pure _
  | matrix columns rows width =>
    refine Stops.bind (Returns.ofCounted _) (Stops.ofCounted fun e he => hb e (.matrix he)) fun p _ => ?_
    exact Stops.pure _
  | pointer base => exact Stops.pure _
  | valuePointer n s => exact Stops.pure _
  | array base length stride =>
    refine Stops.bind (Returns.ofResult _) (Stops.ofResult fun e he => hb _ (.array he)) fun l _ => ?_
    refine Stops.bind (hr base) (hs base (by simp [Shape.references])) fun q _ => ?_
    refine Stops.bind (Returns.ofResult _) (Stops.ofResult fun e he => hb _ (.element he)) fun b _ => ?_
    exact Stops.pure _
  | struct members =>
    refine Stops.bind (Returns.ofResult _) (Stops.ofResult fun e he => hb _ (.placing he)) fun ps hps => ?_
    have hmem : ∀ pm ∈ ps.zip members, pm.1 ∈ ps ∧ pm.2 ∈ members := fun _ hpm => List.of_mem_zip hpm
    refine Stops.bind (lowerMembers_returns hr 0 _) (lowerMembers_stops hr ?_ ?_ ?_ 0) fun r _ => ?_
    · intro pm hpm
      exact hs _ (List.mem_map_of_mem (hmem pm hpm).2)
    · intro pm hpm e he
      exact hb _ (.member (hmem pm hpm).2 he)
    · intro pm hpm e he
      exact hb e (.size hps (hmem pm hpm).1 he)
    · refine Stops.bind (Returns.ofResult _) (Stops.ofResult fun e he => hb _ (.struct he)) fun l _ => ?_
      exact Stops.pure _
  | image dimension arrayed => exact Stops.pure _
  | sampler comparison => exact Stops.pure _

end Shape

section Depth

variable {types : Arena GpuType} {t : Layouts} {E : Failure → Prop}

lemma lowerWithin_stops (hd : Descends types)
    (hb : ∀ h type, types.get? h = some type → ∀ e, Blocks t h type.shape e → E e) {depth : Nat} {h : Handle}
    (hh : min h.index types.size < depth)
    (hn : types.get? h = none → E (.ofError (.notInArena h types.size))) :
    Stops (Sound types t) (lowerWithin types t depth h) E := by
  induction depth generalizing h with
  | zero => exact absurd hh (Nat.not_lt_zero _)
  | succ depth ih =>
    refine Stops.bind Returns.get Stops.get fun c _ => ?_
    cases c.lookup h with
    | some p => exact Stops.pure p
    | none =>
      cases ht : types.get? h with
      | none => exact Stops.throw (hn ht)
      | some type =>
        have hr : ∀ h, Returns (Sound types t) (lowerWithin types t depth h) (Lowers types t h) :=
          lowerWithin_returns types t depth
        have hsize : h.index < types.size := Arena.index_lt_of_get? ht
        have hs : ∀ r ∈ type.shape.references, Stops (Sound types t) (lowerWithin types t depth r) E := by
          intro r hmem
          have hlt := hd h type ht r hmem
          refine ih (by omega) fun hnone => ?_
          have hle : types.size ≤ r.index := Array.getElem?_eq_none_iff.1 hnone
          omega
        refine Stops.bind (lowerShape_returns hr h type.shape) (lowerShape_stops hr hs (hb h type ht)) fun p hp => ?_
        have hlow := lowers_iff.2 ⟨type, ht, hp⟩
        exact Stops.bind (Returns.modify fun c hc => hc.cons hlow) (Stops.modify _) fun _ _ => Stops.pure p

lemma lower_stops (hd : Descends types)
    (hb : ∀ h type, types.get? h = some type → ∀ e, Blocks t h type.shape e → E e) {h : Handle}
    (hn : types.get? h = none → E (.ofError (.notInArena h types.size))) :
    Stops (Sound types t) (lower types t h) E :=
  lowerWithin_stops hd hb (Nat.lt_succ_of_le (Nat.min_le_right ..)) hn

end Depth

end Padded

end ShaderLayout
