import ShaderLayout.Proofs.Arena
import ShaderLayout.Proofs.Layout.Filling
import ShaderLayout.Proofs.Padded.Uncached

namespace ShaderLayout

open Layout (Keeps Prefix)
open Padded (Returns Sound uncached)

namespace Workspace

def lower (h : Handle) : Action Padded := lowerWith fun types t => Padded.lower types t h

inductive Event
  | appendType (t : GpuType)
  | fetchType (t : GpuType)
  | appendConstant (c : Constant)
  | fetchConstant (c : Constant)
  | recompute
  | lower (h : Handle)
  | describe (h : Handle)

def Event.next (w : Workspace) : Event → Workspace
  | appendType t => ((Workspace.appendType t).run.run w).2
  | fetchType t => ((Workspace.fetchType t).run.run w).2
  | appendConstant c => ((Workspace.appendConstant c).run.run w).2
  | fetchConstant c => ((Workspace.fetchConstant c).run.run w).2
  | recompute => (Workspace.recompute.run.run w).2
  | lower h => ((Workspace.lower h).run.run w).2
  | describe h => ((Workspace.describe h).run.run w).2

def after (w : Workspace) (es : List Event) : Workspace := es.foldl Event.next w

structure Caching (w : Workspace) : Prop where
  types_eq : w.lowering.types = .current
  layouts_eq : w.lowering.layouts = .current
  laid_out : Prefix w.types w.constants w.layouts.size w.layouts
  sound : Sound w.types w.layouts w.lowering.cache

variable {w : Workspace}

lemma lowerWith_run {α : Type} (f : Arena GpuType → Layouts → Padded.Lower α) (ht : w.lowering.types = .current)
    (hl : w.lowering.layouts = .current) :
    (lowerWith f).run.run w =
      (((f w.types w.layouts).run.run w.lowering.cache).1,
        { w with lowering := { w.lowering with cache := ((f w.types w.layouts).run.run w.lowering.cache).2 } }) := by
  have hget : StateT.run (ExceptT.run (get : Action Workspace)) w = pure (.ok w, w) := rfl
  simp only [lowerWith, ExceptT.run_bind, StateT.run_bind, hget, pure_bind, ht, hl, Held.value]
  generalize (f w.types w.layouts).run.run w.lowering.cache = r
  obtain ⟨r | a, c⟩ := r
  · rfl
  · rfl

lemma newLowering_run {α : Type} (a : Action α) (w : Workspace) :
    (newLowering *> a).run.run w = a.run.run { w with lowering := freshLowering } := rfl

lemma Caching.start (hl : w.lowering = freshLowering)
    (ht : w.layouts = #[] ∨ Layout.table w.types w.constants = .ok w.layouts) : Caching w := by
  have hp : Prefix w.types w.constants w.layouts.size w.layouts := by
    rcases ht with ht | ht
    · rw [ht]
      exact Prefix.nil ..
    · have hp := Layout.table_prefix ht
      rwa [hp.size_eq]
  refine ⟨by rw [hl]; rfl, by rw [hl]; rfl, hp, ?_⟩
  rw [hl]
  exact Sound.nil

lemma Caching.grow (hw : Caching w) {types : Arena GpuType} {constants : Arena Constant}
    (ht : w.types.toList <+: types.toList) (hc : w.constants.toList <+: constants.toList) :
    Caching { w with types, constants } := by
  obtain ⟨htypes, hlayouts, hp, hs⟩ := hw
  refine ⟨htypes, hlayouts, hp.mono ht hc, fun h p hl => ?_⟩
  exact (hs h p hl).mono (fun _ _ => Arena.get?_mono ht) (Keeps.refl _)

lemma Caching.recompute (hw : Caching w) : Caching (Workspace.recompute.run.run w).2 := by
  obtain ⟨htypes, hlayouts, hp, hs⟩ := hw
  have hprefix : w.layouts.toList <+: (Layout.fill w.types w.constants).1.toList := by
    rw [hp.fill_eq]
    exact Layout.extend_isPrefix ..
  have hp' : Prefix w.types w.constants (Layout.fill w.types w.constants).1.size
      (Layout.fill w.types w.constants).1 := by
    obtain ⟨t, hf, hp'⟩ | ⟨t, e, hf, hfails⟩ := Layout.fill_ends w.types w.constants
    · rw [hf]
      exact hp'.size_eq ▸ hp'
    · rw [hf]
      exact hfails.earlier
  rw [Layout.recompute_run]
  refine ⟨htypes, hlayouts, hp', fun h p hl => ?_⟩
  exact (hs h p hl).mono (fun _ _ h => h) (Keeps.of_isPrefix hprefix)

lemma Caching.lowerWith (hw : Caching w) {α : Type} {f : Arena GpuType → Layouts → Padded.Lower α} {P : α → Prop}
    (hf : Returns (Sound w.types w.layouts) (f w.types w.layouts) P) :
    Caching ((Workspace.lowerWith f).run.run w).2 := by
  rw [lowerWith_run f hw.types_eq hw.layouts_eq]
  exact ⟨hw.types_eq, hw.layouts_eq, hw.laid_out, (hf _ hw.sound).1⟩

lemma Caching.next (hw : Caching w) (e : Event) : Caching (e.next w) := by
  cases e with
  | appendType t => exact hw.grow (by simp) List.prefix_rfl
  | fetchType t => exact hw.grow (Arena.prefix_fetchOrAppend ..) List.prefix_rfl
  | appendConstant c => exact hw.grow List.prefix_rfl (by simp)
  | fetchConstant c => exact hw.grow List.prefix_rfl (Arena.prefix_fetchOrAppend ..)
  | recompute => exact hw.recompute
  | lower h => exact hw.lowerWith (Padded.lower_returns w.types w.layouts h)
  | describe h => exact hw.lowerWith (Padded.describe_returns w.types w.layouts h)

lemma Caching.after (hw : Caching w) (es : List Event) : Caching (w.after es) := by
  induction es generalizing w with
  | nil => exact hw
  | cons e es ih => exact ih (hw.next e)

/-- What a lowering has kept is never seen. After any events it gives for a type what a new lowering gives,
and fails as that fails; so long as a new lowering ends at some depth, that is also how it ends here. -/
theorem cache_is_unseen (hl : w.lowering = freshLowering)
    (ht : w.layouts = #[] ∨ Layout.table w.types w.constants = .ok w.layouts) (es : List Event) :
    (∀ h, ((lower h).run.run (w.after es)).1 = ((newLowering *> lower h).run.run (w.after es)).1) ∧
      (∀ h, ((describe h).run.run (w.after es)).1 = ((newLowering *> describe h).run.run (w.after es)).1) ∧
      (∀ h d, ((Padded.lowerWithin (w.after es).types (w.after es).layouts d h).run.run []).1 ≠ .error .endless →
        ((lower h).run.run (w.after es)).1 =
          ((Padded.lowerWithin (w.after es).types (w.after es).layouts d h).run.run []).1) ∧
      ∀ h p, (w.after es).lowering.cache.lookup h = some p →
        uncached (w.after es).types (w.after es).layouts h = .ok p := by
  obtain ⟨htypes, hlayouts, -, hs⟩ := (Caching.start hl ht).after es
  generalize w.after es = w at htypes hlayouts hs ⊢
  have hlower : ∀ h, ((lower h).run.run w).1 = uncached w.types w.layouts h := by
    intro h
    rw [lower, lowerWith_run _ htypes hlayouts]
    exact Padded.lower_eq_uncached hs h
  have hnew : ∀ h, ((newLowering *> lower h).run.run w).1 = uncached w.types w.layouts h := by
    intro h
    rw [newLowering_run, lower, lowerWith_run _ rfl rfl]
    exact Padded.lower_eq_uncached Sound.nil h
  refine ⟨fun h => (hlower h).trans (hnew h).symm, fun h => ?_, fun h d hn => ?_, fun h p hl => hs.uncached hl⟩
  · rw [newLowering_run, describe, lowerWith_run _ htypes hlayouts, lowerWith_run _ rfl rfl]
    simp only [Padded.describe_eq_bind]
    rw [Padded.lower_eq_uncached hs, Padded.lower_eq_uncached (c := freshLowering.cache) Sound.nil]
  · rw [lower, lowerWith_run _ htypes hlayouts]
    exact Padded.lower_eq_lowerWithin hs Sound.nil hn

theorem cache_is_unseen_struct :
    let types : Arena GpuType := .ofList [⟨.scalar ⟨.float, 4⟩, none⟩,
      ⟨.struct [⟨⟨0⟩, some "x", none, some 8⟩], some "A"⟩]
    let outer : GpuType := ⟨.struct [⟨⟨1⟩, some "a", none, none⟩], some "B"⟩
    let w : Workspace := ⟨types, .empty, #[⟨4, 4⟩, ⟨8, 4⟩], freshLowering, .empty none ""⟩
    let es : List Event := [.appendType outer, .describe ⟨2⟩, .recompute]
    let inner : Padded := .packed [.packed [.float, .array 4 (.int 8)]]
    (w.layouts = #[] ∨ Layout.table w.types w.constants = .ok w.layouts) ∧
      ((describe ⟨2⟩).run.run (w.after [.appendType outer])).1 = .error (.layout (.notLaidOut ⟨2⟩ 2)) ∧
      uncached (w.after es).types (w.after es).layouts ⟨1⟩ = .ok inner ∧
      ((newLowering *> lower ⟨2⟩).run.run (w.after es)).1 = .ok (.packed [inner]) := by
  intro types outer w es inner
  have ht : w.layouts = #[] ∨ Layout.table w.types w.constants = .ok w.layouts := .inr rfl
  obtain ⟨hlower, -, -, hcache⟩ := cache_is_unseen (w := w) rfl ht es
  have hafter : w.after es = ⟨types.append outer, .empty, #[⟨4, 4⟩, ⟨8, 4⟩, ⟨8, 4⟩],
    ⟨[(⟨1⟩, inner), (⟨0⟩, .float)], .current, .current⟩, .empty none ""⟩ := rfl
  have hkept : (w.after es).lowering.cache.lookup ⟨1⟩ = some inner := rfl
  have hgives : ((lower ⟨2⟩).run.run (w.after es)).1 = .ok (.packed [inner]) := by
    rw [hafter]
    cbv
  have hearly : ((describe ⟨2⟩).run.run (w.after [.appendType outer])).1 = .error (.ofError (.notLaidOut ⟨2⟩ 2)) := rfl
  rw [Layout.ofError_eq_surfaced, Layout.surfaced_of_small (by decide)] at hearly
  exact ⟨ht, hearly, hcache ⟨1⟩ inner hkept, (hlower ⟨2⟩).symm.trans hgives⟩

end Workspace

end ShaderLayout
