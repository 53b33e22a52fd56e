import ShaderLayout.Proofs.Description.Changing
import ShaderLayout.Proofs.Description.Mirroring

/-!
Building a type expression once more. What the names in it meant, and the entries that were made for it, are all still
there in any later state; so the same handle comes out, and nothing is made again.
-/

namespace ShaderLayout.Description

open Number

def Clear (s : Progress) : Prop := ∀ name, (predeclared.lookup name).isSome → s.table.typeNames.lookup name = none

def Harmless (fs : List Finding) : Prop := ∀ f ∈ fs, f.problem.isError = false

lemma extends_addFindings (s : Progress) (fs : List Finding) : Extends s (s.addFindings fs) :=
  (adds_findings s fs).extends

lemma addFindings_nil (s : Progress) : s.addFindings [] = s := by
  rw [Progress.addFindings, List.append_nil]

lemma addFindings_addFindings (s : Progress) (fs gs : List Finding) :
    (s.addFindings fs).addFindings gs = s.addFindings (fs ++ gs) := by
  simp only [Progress.addFindings, List.append_assoc]

structure Fails {α : Type} (m : Build (Option α)) : Prop where
  grows : ∀ s, Extends s (m.run s).2
  none : ∀ s, (m.run s).1 = none

/-- What a step gave it gives again in any later state, where it then adds harmless findings and nothing else. -/
structure Repeats {α : Type} (m : Build (Option α)) : Prop where
  grows : ∀ s, Extends s (m.run s).2
  again : ∀ s a u, (m.run s).1 = some a → Extends (m.run s).2 u → Clear u →
    ∃ fs, Harmless fs ∧ m.run u = (some a, u.addFindings fs)

section Combinators

variable {α β : Type} {m : Build (Option α)} {f : Option α → Build (Option β)}

lemma Fails.pure : Fails (Pure.pure Option.none : Build (Option α)) := ⟨fun s => .refl s, fun _ => rfl⟩

lemma Fails.fail (p : Problem) (r : Region) : Fails (Build.fail p r : Build (Option α)) :=
  ⟨fun s => extends_addFindings s [⟨p, r⟩], fun _ => rfl⟩

lemma Fails.ite {p : Prop} [Decidable p] {m n : Build (Option α)} (hm : Fails m) (hn : Fails n) :
    Fails (if p then m else n) := by
  split
  · exact hm
  · exact hn

lemma Fails.bind {γ : Type} {m : Build γ} {f : γ → Build (Option β)} (hm : ∀ s, Extends s (m.run s).2)
    (hf : ∀ a, Fails (f a)) : Fails (m >>= f) :=
  ⟨fun s => (hm s).trans ((hf _).grows _), fun _ => (hf _).none _⟩

namespace Repeats

lemma of_fails (h : Fails m) : Repeats m := by
  refine ⟨h.grows, fun s a u ha => ?_⟩
  rw [h.none s] at ha
  cases ha

lemma fail (p : Problem) (r : Region) : Repeats (Build.fail p r : Build (Option α)) := of_fails (.fail p r)

lemma none : Repeats (Pure.pure none : Build (Option α)) := of_fails .pure

lemma some (a : α) : Repeats (Pure.pure (some a)) := by
  refine ⟨fun s => .refl s, fun s b u hb _ _ => ⟨[], by simp [Harmless], ?_⟩⟩
  rw [addFindings_nil, ← hb]
  rfl

lemma bind (hm : Repeats m) (hn : Fails (f .none)) (hf : ∀ a, Repeats (f (.some a))) : Repeats (m >>= f) := by
  have hgrows : ∀ r s, Extends s ((f r).run s).2 := by
    intro r s
    cases r with
    | none => exact hn.grows s
    | some a => exact (hf a).grows s
  refine ⟨fun s => (hm.grows s).trans (hgrows _ _), fun s b u hb hu hc => ?_⟩
  change ((f (m.run s).1).run (m.run s).2).1 = .some b at hb
  change Extends ((f (m.run s).1).run (m.run s).2).2 u at hu
  cases ha : (m.run s).1 with
  | none =>
    rw [ha, hn.none] at hb
    cases hb
  | some a =>
    rw [ha] at hb hu
    obtain ⟨fs, hfs, hrun⟩ := hm.again s a u ha (((hf a).grows _).trans hu) hc
    obtain ⟨gs, hgs, hrun'⟩ := (hf a).again _ b (u.addFindings fs) hb (hu.trans (extends_addFindings u fs)) hc
    refine ⟨fs ++ gs, List.forall_mem_append.2 ⟨hfs, hgs⟩, ?_⟩
    rw [StateT.run_bind, hrun]
    change (f (.some a)).run (u.addFindings fs) = _
    rw [hrun', addFindings_addFindings]

lemma getTable {f : Table → Build (Option α)} (hf : ∀ t, Repeats (f t))
    (hlook : ∀ s a u, ((f s.table).run s).1 = .some a → Extends s u → Clear u → f u.table = f s.table) :
    Repeats (Build.getTable >>= f) := by
  refine ⟨fun s => (hf s.table).grows s, fun s a u ha hu hc => ?_⟩
  change ∃ fs, Harmless fs ∧ (f u.table).run u = _
  rw [hlook s a u ha (((hf s.table).grows s).trans hu) hc]
  exact (hf s.table).again s a u ha hu hc

lemma report {p : Problem} (hp : p.isError = false) (r : Region) (a : α) :
    Repeats (do Build.report p r; Pure.pure (.some a)) := by
  refine ⟨fun s => extends_addFindings s [⟨p, r⟩], fun s b u hb _ _ => ⟨[⟨p, r⟩], ?_, ?_⟩⟩
  · simpa [Harmless] using hp
  · rw [← hb]
    rfl

end Repeats

end Combinators

section Leaf

lemma shareType_repeats (shape : Shape) : Repeats (do Pure.pure (some (← Build.shareType shape))) := by
  refine ⟨fun s => ?_, fun s h u hh hu _ => ⟨[], by simp [Harmless], ?_⟩⟩
  · let p := s.table.types.fetchOrAppend ⟨shape, none⟩
    change Extends s { s with table := { s.table with types := p.2 } }
    exact ⟨Arena.prefix_fetchOrAppend .., List.prefix_rfl, List.prefix_rfl, List.prefix_rfl, List.prefix_rfl⟩
  · have hfound := Arena.find?_of_prefix hu.types (Arena.find?_fetchOrAppend s.table.types (beq_self_eq_true _))
    let p := u.table.types.fetchOrAppend ⟨shape, none⟩
    change (some p.1, { u with table := { u.table with types := p.2 } }) = _
    rw [show p = _ from Arena.fetchOrAppend_of_find? hfound, addFindings_nil, ← hh]
    rfl

lemma placing_repeats {m : Build (Option Shape)} (hm : Repeats m) : Repeats (Build.placing none m) :=
  hm.bind .pure shareType_repeats

lemma lengthValue_beq_self (n : Int) (suffix : Numeral.Suffix) :
    ((⟨.scalar 4 (Build.lengthValue n suffix), none⟩ : Constant) == ⟨.scalar 4 (Build.lengthValue n suffix), none⟩) =
      true := by
  rw [Build.lengthValue]
  split
  · simp [BEq.beq, instBEqConstant.beq, instBEqConstantValue.beq, instBEqScalarValue.beq, Option.instBEq.beq]
  · simp [BEq.beq, instBEqConstant.beq, instBEqConstantValue.beq, instBEqScalarValue.beq, Option.instBEq.beq]

lemma shareConstant_repeats (n : Int) (suffix : Numeral.Suffix) : Repeats (do
    Pure.pure (some (ArrayLength.constant (← Build.shareConstant (.scalar 4 (Build.lengthValue n suffix)))))) := by
  let c : Constant := ⟨.scalar 4 (Build.lengthValue n suffix), none⟩
  refine ⟨fun s => ?_, fun s h u hh hu _ => ⟨[], by simp [Harmless], ?_⟩⟩
  · let p := s.table.constants.fetchOrAppend c
    change Extends s { s with table := { s.table with constants := p.2 } }
    exact ⟨List.prefix_rfl, Arena.prefix_fetchOrAppend .., List.prefix_rfl, List.prefix_rfl, List.prefix_rfl⟩
  · have hfound := Arena.find?_of_prefix hu.constants
      (Arena.find?_fetchOrAppend s.table.constants (lengthValue_beq_self n suffix))
    let p := u.table.constants.fetchOrAppend c
    change (some (ArrayLength.constant p.1), { u with table := { u.table with constants := p.2 } }) = _
    rw [show p = _ from Arena.fetchOrAppend_of_find? hfound, addFindings_nil, ← hh]
    rfl

lemma resolveType_repeats (name : Token) : Repeats (Build.resolveType name) := by
  refine Repeats.getTable (fun t => ?_) fun s h u hh hu hc => ?_
  · split
    · exact .some _
    · exact shareType_repeats _
    · split
      · exact .fail _ _
      · exact .fail _ _
  · cases hl : s.table.typeNames.lookup name.text with
    | some k => rw [hu.typeNames.lookup_eq_some hl]
    | none =>
      cases hp : predeclared.lookup name.text with
      | some scalar => rw [hc name.text (by rw [hp]; rfl)]
      | none =>
        simp only [hl, hp] at hh
        split at hh
        · cases hh
        · cases hh

lemma component_repeats (name : Token) : Repeats (Build.component name) := by
  refine (resolveType_repeats name).bind .pure fun h => ?_
  refine Repeats.getTable (fun t => ?_) fun s c u hc hu _ => ?_
  · split
    · exact .some _
    · exact .fail _ _
  · cases hg : s.table.types.get? h with
    | some type => rw [Arena.get?_mono hu.types hg]
    | none =>
      rw [hg] at hc
      cases hc

lemma vectorSize_repeats (what : String) (t : Token) : Repeats (Build.vectorSize what t) := by
  rw [Build.vectorSize]
  split
  · exact .some _
  · exact .fail _ _

lemma vector_repeats (size name : Token) : Repeats (Build.vector size name) := by
  refine (vectorSize_repeats _ size).bind ?_ fun n => (component_repeats name).bind .pure fun c => .some _
  exact .bind (component_repeats name).grows fun c => .pure

lemma matrix_repeats (columns rows name : Token) : Repeats (Build.matrix columns rows name) := by
  refine (vectorSize_repeats _ columns).bind ?_ fun c => (vectorSize_repeats _ rows).bind ?_ fun r => ?_
  -- Whatever the component, there is no matrix without one of the sizes.
  · refine .bind (vectorSize_repeats _ rows).grows fun r => .bind (component_repeats name).grows fun k => ?_
    cases k with
    | none => exact .pure
    | some k => exact .ite .pure (.fail _ _)
  · refine .bind (component_repeats name).grows fun k => ?_
    cases k with
    | none => exact .pure
    | some k => exact .ite .pure (.fail _ _)
  · refine (component_repeats name).bind .pure fun k => ?_
    simp only
    split
    · exact .some _
    · exact .fail _ _

lemma valuePointer_repeats (region : Region) (h : Handle) : Repeats (Build.valuePointer region (some h)) := by
  refine Repeats.getTable (fun t => ?_) fun s shape u hh hu _ => ?_
  · split
    · exact .some _
    · exact .some _
    · exact .fail _ _
    · exact .none
  · cases hg : s.table.types.get? h with
    | some type => rw [Arena.get?_mono hu.types hg]
    | none =>
      rw [hg] at hh
      cases hh

lemma arrayLength_repeats (length : Option Token) : Repeats (Build.arrayLength length) := by
  rw [Build.arrayLength.eq_def]
  split
  · exact .some _
  · next t =>
    split
    · refine Repeats.getTable (fun table => ?_) fun s n u hh hu _ => ?_
      · split
        · exact .some _
        · split
          · exact .fail _ _
          · exact .fail _ _
      · cases hl : s.table.constantNames.lookup t.text with
        | some h => rw [hu.constantNames.lookup_eq_some hl]
        | none =>
          simp only [hl] at hh
          split at hh
          · cases hh
          · cases hh
    · split
      · exact .fail _ _
      · exact shareConstant_repeats _ _

lemma image_repeats (dimension : Token) (flag : Option Token) : Repeats (Build.image dimension flag) := by
  rw [Build.image.eq_def]
  split
  · exact .fail _ _
  · exact .some _
  · split
    · exact .some _
    · exact .fail _ _

lemma attributes_repeats (allowed : List AttributeKind) (target : String) (as : List Attribute) :
    Repeats (Build.attributes allowed target as) := by
  let judged := Attribute.judgeAll allowed target [] as
  refine ⟨fun s => extends_addFindings s judged.2, fun s accepted u ha _ _ => ⟨[], by simp [Harmless], ?_⟩⟩
  change (if judged.2 = [] then some judged.1 else none) = _ at ha
  change (if judged.2 = [] then some judged.1 else none, u.addFindings judged.2) = _
  split at ha
  · next hj => rw [if_pos hj, ha, hj]
  · cases ha

end Leaf

section Syntax

lemma member_repeats (seen : List String) (as : List Attribute) (name : Token) {type : TypeExpr}
    (ht : Repeats (Build.typeExpr type none)) : Repeats (Build.member seen (.mk as name type)) := by
  rw [Build.member]
  refine (attributes_repeats _ _ as).bind (.bind ht.grows fun ty => ?_) fun accepted => ht.bind ?_ fun h => ?_
  · split
    · exact .fail _ _
    · exact .pure
  · split
    · exact .fail _ _
    · exact .pure
  · split
    · exact .fail _ _
    · exact .some _

mutual

lemma typeExpr_repeats (e : TypeExpr) : Repeats (Build.typeExpr e none) := by
  obtain ⟨as, region, b⟩ := e
  rw [Build.typeExpr]
  exact (attributes_repeats _ _ as).bind .pure fun accepted => body_repeats b region accepted
termination_by structural e

lemma body_repeats (b : Body) (region : Region) (accepted : Accepted) :
    Repeats (Build.body region accepted none b) := by
  cases b with
  | named n =>
    rw [Build.body]
    exact resolveType_repeats n
  | vector size c =>
    rw [Build.body]
    exact placing_repeats (vector_repeats size c)
  | matrix columns rows c =>
    rw [Build.body]
    exact placing_repeats (matrix_repeats columns rows c)
  | pointer target =>
    rw [Build.body]
    exact placing_repeats ((typeExpr_repeats target).bind .pure fun h => .some _)
  | valuePointer target =>
    rw [Build.body]
    exact placing_repeats ((typeExpr_repeats target).bind .pure fun h => valuePointer_repeats _ h)
  | array element length =>
    rw [Build.body]
    refine placing_repeats ((typeExpr_repeats element).bind ?_ fun base => ?_)
    · exact .bind (arrayLength_repeats length).grows fun n => .pure
    · exact (arrayLength_repeats length).bind .pure fun n => .some _
  | struct ms =>
    rw [Build.body]
    refine placing_repeats ((members_repeats ms []).bind .pure fun sms => ?_)
    cases sms with
    | nil => exact .report rfl _ _
    | cons m rest => exact .some _
  | image dimension flag =>
    rw [Build.body]
    exact placing_repeats (image_repeats dimension flag)
  | sampler comparison =>
    rw [Build.body]
    exact placing_repeats (.some _)
termination_by structural b

lemma members_repeats (ms : List Member) (seen : List String) : Repeats (Build.members ms seen) := by
  match ms with
  | [] =>
    rw [Build.members]
    exact .some _
  | .mk as name type :: rest =>
    rw [Build.members]
    have hrest := members_repeats rest (name.text :: seen)
    refine (member_repeats seen as name (typeExpr_repeats type)).bind ?_ fun m => ?_
    · exact .bind hrest.grows fun others => .pure
    · exact hrest.bind .pure fun others => .some _
termination_by structural ms

end

lemma map_erase_harmless {fs gs : List Finding} (h : fs.map Finding.erase = gs.map Finding.erase) (hg : Harmless gs) :
    Harmless fs := by
  intro f hf
  have hmem : f.erase ∈ gs.map Finding.erase := h ▸ List.mem_map_of_mem hf
  obtain ⟨g, hgmem, he⟩ := List.mem_map.1 hmem
  have hproblem : g.problem = f.problem := (Finding.mk.inj he).1
  exact hproblem ▸ hg g hgmem

lemma typeExpr_again {e e' : TypeExpr} (he : e'.erase = e.erase) {s s' u : Progress} {h : Handle}
    (hrun : (Build.typeExpr e none).run s = (some h, s')) (hu : Extends s' u) (hc : Clear u) :
    ∃ fs, Harmless fs ∧ (Build.typeExpr e' none).run u = (some h, u.addFindings fs) := by
  obtain ⟨fs, hfs, hagain⟩ := (typeExpr_repeats e).again s h u (by rw [hrun]) (by rwa [hrun]) hc
  obtain ⟨-, hplain⟩ := typeExpr_mirrors (R := fun _ => True) e none (fun _ _ => trivial) u (fun _ _ => trivial)
  obtain ⟨-, hplain'⟩ := typeExpr_mirrors (R := fun _ => True) e' none (fun _ _ => trivial) u (fun _ _ => trivial)
  rw [he, hplain, hagain] at hplain'
  obtain ⟨gs, hgs⟩ := ((typeExpr_repeats e').grows u).findings
  generalize (Build.typeExpr e' none).run u = r at hplain' hgs
  obtain ⟨r, table, findings⟩ := r
  obtain ⟨hr, hv⟩ := Prod.mk.inj hplain'
  obtain ⟨htable, hfindings⟩ := Progress.mk.inj hv
  subst hr htable hgs
  have herased : fs.map Finding.erase = gs.map Finding.erase := by
    simpa [Progress.addFindings] using hfindings
  exact ⟨gs, map_erase_harmless herased.symm hfs, rfl⟩

end Syntax

end ShaderLayout.Description
