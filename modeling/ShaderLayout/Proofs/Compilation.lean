import ShaderLayout.Proofs.Description.Naming
import ShaderLayout.Proofs.Description.Refinement
import ShaderLayout.Proofs.Listing

namespace ShaderLayout.Description

open Layout

lemma Residual.explained {table : Table} {t : Layouts} {k : Nat} {type : GpuType} {e : LayoutError}
    (h : Residual table t k type e) : ∃ c, Explains c e := by
  cases h with
  | lengthNotInteger => exact ⟨_, .lengthNotInteger ..⟩
  | zeroAlignment => exact ⟨_, .zeroAlignment ..⟩
  | sizeOverflow => exact ⟨_, .sizeOverflow ..⟩

lemma laid_out_before {s s' : Progress} (hw : s.table.WellFormed) (he : Extends s s') {t' : Layouts}
    (ht' : Layout.table s'.table.types s'.table.constants = .ok t') :
    ∃ t, Layout.table s.table.types s.table.constants = .ok t ∧ t.toList <+: t'.toList := by
  have hp' := table_prefix ht'
  have hfill' := hp'.fill_all
  obtain ⟨t, hfill, hp⟩ | ⟨t, e, -, hf⟩ := fill_ends s.table.types s.table.constants
  · refine ⟨t, by rw [Layout.table, hfill], ?_⟩
    rw [(hp.mono he.types he.constants).fill_eq] at hfill'
    have hgrow := extend_isPrefix s'.table.constants t (s'.table.types.toList.drop s.table.types.size)
    rwa [hfill'] at hgrow
  · -- The first type without a layout would still have none.
    obtain ⟨type, htype, hrefuses⟩ := hf.refuses
    obtain ⟨c, hx⟩ := Residual.explained (hw.residual hf.earlier htype hrefuses)
    rw [(hx.failsAt_mono he.types he.constants hf).fill] at hfill'
    cases hfill'

lemma readingOf_accepted_iff {is : List Item} {table : Table} :
    (readingOf is).accepted? = some table ↔ Quiet (build is) ∧ table = (build is).table := by
  rw [Reading.accepted?, Reading.hasErrors, Quiet]
  split
  · next h =>
    simp only [readingOf, List.any_eq_true] at h
    obtain ⟨f, hf, he⟩ := h
    simp only [reduceCtorEq, false_iff, not_and]
    intro hq
    rw [hq f hf] at he
    cases he
  · next h =>
    simp only [readingOf, List.any_eq_true, not_exists, not_and, Bool.not_eq_true] at h
    simp only [readingOf, Option.some_inj, eq_comm (a := table), iff_and_self]
    exact fun _ => h

end ShaderLayout.Description

namespace ShaderLayout.Compilation

open Description Padded

/-- Whatever was asked before, the types of a description that is laid out can be described in any order,
and each has its row. -/
theorem laid_out_describes_and_lists {source : String} {table : Table} {t : Layouts}
    (hr : (read source).accepted? = some table)
    (ht : Layout.table table.types table.constants = .ok t) :
    (∀ before calls : List Handle, (∀ h ∈ calls, h.index < table.types.size) →
      ∃ texts, ((calls.mapM (describe table.types t)).run.run (cacheAfter table.types t before)).1 = .ok texts ∧
        List.Forall₂ (fun h text => ∃ p, Lowers table.types t h p ∧ p.text? = some text) calls texts) ∧
      ∃ rs, Listing.rows table.types table.constants t = .ok rs ∧ rs.length = table.types.size ∧
        ∀ i type, table.types.get? ⟨i⟩ = some type →
          ∃ r, rs[i]? = some r ∧ Listing.Shows table.types table.constants i type r := by
  obtain ⟨is, -, rfl, -⟩ := read_accepted hr
  have hw := build_wellFormed is
  have hp := Layout.table_prefix ht
  refine ⟨fun before calls hcalls => ?_, Listing.rows_ok hw hp⟩
  exact describe_mapM hw hp (build_alignmentsWritable is) calls hcalls
    (sound_cacheAfter _ t before)

theorem laid_out_describes_and_lists_struct : ∃ table t texts rs,
    (read "type S = struct { a: f32, @size(2) b: vec<3, u32> };").accepted? = some table ∧
      Layout.table table.types table.constants = .ok t ∧
      (([⟨3⟩, ⟨0⟩, ⟨3⟩].mapM (describe table.types t)).run.run []).1 = .ok texts ∧
      Listing.rows table.types table.constants t = .ok rs ∧ texts.length = 3 ∧ rs.length = 4 := by
  have hsize : ((read "type S = struct { a: f32, @size(2) b: vec<3, u32> };").accepted?.any fun table =>
      table.types.size == 4 && (Layout.table table.types table.constants).toOption.isSome) = true := by
    decide +kernel
  cases hr : (read "type S = struct { a: f32, @size(2) b: vec<3, u32> };").accepted? with
  | none =>
    rw [hr] at hsize
    cases hsize
  | some table =>
    rw [hr, Option.any_some, Bool.and_eq_true, beq_iff_eq] at hsize
    obtain ⟨hsize, hlaid⟩ := hsize
    cases ht : Layout.table table.types table.constants with
    | error f =>
      rw [ht] at hlaid
      cases hlaid
    | ok t =>
      obtain ⟨hdescribe, rs, hrs, hlength, -⟩ := laid_out_describes_and_lists hr ht
      obtain ⟨texts, htexts, hall⟩ := hdescribe [] [⟨3⟩, ⟨0⟩, ⟨3⟩] (by simp [hsize])
      exact ⟨table, t, texts, rs, rfl, ht, htexts, hrs, hall.length_eq.symm, hlength.trans hsize⟩

lemma listTable_ok {table : Table} {t : Layouts} {is : List Item} (hi : table = (build is).table)
    (ht : Layout.table table.types table.constants = .ok t) :
    ∃ listed, listTable table.types table.constants t = .ok listed ∧
      Listing.rows table.types table.constants t = .ok listed.rows ∧ listed.rows.length = table.types.size ∧
      List.Forall₂ (fun h text => ∃ p, Lowers table.types t h p ∧ p.text? = some text) table.types.handles
        listed.lowered := by
  subst hi
  have hw := build_wellFormed is
  have hp := Layout.table_prefix ht
  obtain ⟨rs, hrs, hlength, -⟩ := Listing.rows_ok hw hp
  obtain ⟨texts, htexts, hall⟩ := describe_mapM hw hp (build_alignmentsWritable is) (build is).table.types.handles
    (by simp [Arena.handles]) Sound.nil
  refine ⟨⟨rs, texts⟩, ?_, hrs, hlength, hall⟩
  rw [listTable, hrs]
  change ((describeAll (build is).table.types t).run.run []).1 >>= _ = _
  rw [describeAll, htexts]
  rfl

lemma forall₂_grow {α β : Type} {R S : α → β → Prop} (hRS : ∀ a b b', R a b → S a b' → b = b') {l l' : List α}
    {m m' : List β} (hm : List.Forall₂ R l m) (hm' : List.Forall₂ S l' m') (hl : l <+: l') : m <+: m' := by
  induction hm generalizing l' m' with
  | nil => exact List.nil_prefix
  | cons hab _ ih =>
    cases hm' with
    | nil => simp at hl
    | cons hab' hrest =>
      rw [List.cons_prefix_cons] at hl
      obtain ⟨rfl, hl⟩ := hl
      rw [hRS _ _ _ hab hab', List.cons_prefix_cons]
      exact ⟨rfl, ih hrest hl⟩

lemma handles_grow {α : Type} {a b : Arena α} (h : a.toList <+: b.toList) : a.handles <+: b.handles := by
  obtain ⟨k, hk⟩ := Nat.exists_eq_add_of_le (Arena.size_mono h)
  rw [Arena.handles, Arena.handles, hk, List.range_add, List.map_append]
  exact List.prefix_append ..

section Growth

variable {types types' : Arena GpuType} {t t' : Layouts} (ht : types.toList <+: types'.toList)
  (hk : t.toList <+: t'.toList)

include ht hk

lemma lowered_alike (h : Handle) (text text' : String)
    (hl : ∃ p, Lowers types t h p ∧ p.text? = some text) (hl' : ∃ p, Lowers types' t' h p ∧ p.text? = some text') :
    text = text' := by
  obtain ⟨p, hp, htext⟩ := hl
  obtain ⟨p', hp', htext'⟩ := hl'
  have hgrown := hp.mono (fun _ _ => Arena.get?_mono ht) (Layout.Keeps.of_isPrefix hk)
  obtain rfl := hgrown.unique hp'
  exact Option.some.inj (htext.symm.trans htext')

end Growth

/-- Items appended to a description change nothing of what was built, laid out, listed or lowered before them. -/
theorem appending_keeps (p q : List Item) :
    Extends (build p) (build (p ++ q)) ∧
      (∀ kind name h, ((build p).table.names kind).lookup name = some h →
        ((build (p ++ q)).table.names kind).lookup name = some h) ∧
      ∀ table' t', (readingOf (p ++ q)).accepted? = some table' →
        Layout.table table'.types table'.constants = .ok t' →
        ∃ table t listed listed', (readingOf p).accepted? = some table ∧
          Layout.table table.types table.constants = .ok t ∧ t.toList <+: t'.toList ∧
          listTable table.types table.constants t = .ok listed ∧
          listTable table'.types table'.constants t' = .ok listed' ∧
          listed.rows.length = table.types.size ∧ listed.lowered.length = table.types.size ∧
          listed.rows <+: listed'.rows ∧ listed.lowered <+: listed'.lowered ∧
          ∀ (before before' : List Handle) (h : Handle), h.index < table.types.size →
            ((describe table.types t h).run.run (cacheAfter table.types t before)).1 =
              ((describe table'.types t' h).run.run (cacheAfter table'.types t' before')).1 := by
  have he := build_extends p q
  refine ⟨he, fun kind _ _ hh => (he.names kind).lookup_eq_some hh, fun table' t' hr' ht' => ?_⟩
  obtain ⟨hq, rfl⟩ := readingOf_accepted_iff.1 hr'
  obtain ⟨t, ht, hgrow⟩ := laid_out_before (build_wellFormed p) he ht'
  obtain ⟨listed, hlisted, hrows, hlength, htexts⟩ := listTable_ok rfl ht
  obtain ⟨listed', hlisted', hrows', -, htexts'⟩ := listTable_ok rfl ht'
  have hp := Layout.table_prefix ht
  have hp' := Layout.table_prefix ht'
  have halike := lowered_alike he.types hgrow
  refine ⟨(build p).table, t, listed, listed', readingOf_accepted_iff.2 ⟨hq.before he, rfl⟩, ht, hgrow, hlisted,
    hlisted', hlength, ?_, ?_, ?_, fun before before' h hh => ?_⟩
  · simpa [Arena.handles] using htexts.length_eq.symm
  · exact Listing.rows_grow he.types he.constants hgrow hp.size_eq hrows hrows'
  · exact forall₂_grow halike htexts htexts' (handles_grow he.types)
  · have hh' : h.index < (build (p ++ q)).table.types.size := hh.trans_le (Arena.size_mono he.types)
    obtain ⟨text, c, hrun, -, hlow⟩ := describe_run (build_wellFormed p) hp
      (build_alignmentsWritable p) hh (sound_cacheAfter _ t before)
    obtain ⟨text', c', hrun', -, hlow'⟩ := describe_run (build_wellFormed (p ++ q)) hp'
      (build_alignmentsWritable (p ++ q)) hh' (sound_cacheAfter _ t' before')
    rw [hrun, hrun', halike h text text' hlow hlow']

theorem appending_keeps_array : ∃ p q table' t', ∃ listed listed' : Listed,
    parse "type A = array<u32, 3>;" = .ok p ∧ parse "type B = struct { a: array<u32, 3>, b: A };" = .ok q ∧
      (readingOf (p ++ q)).accepted? = some table' ∧ Layout.table table'.types table'.constants = .ok t' ∧
      listTable table'.types table'.constants t' = .ok listed' ∧ listed.rows.length = 2 ∧
      listed.rows <+: listed'.rows ∧ listed.lowered <+: listed'.lowered := by
  have hall : ((parse "type A = array<u32, 3>;").toOption.any fun p =>
      (parse "type B = struct { a: array<u32, 3>, b: A };").toOption.any fun q =>
        (readingOf (p ++ q)).accepted?.any fun table' =>
          (build p).table.types.size == 2 && (Layout.table table'.types table'.constants).toOption.isSome) = true := by
    decide +kernel
  obtain ⟨p, hp, hall⟩ := (Option.any_eq_true _ _).1 hall
  obtain ⟨q, hq, hall⟩ := (Option.any_eq_true _ _).1 hall
  obtain ⟨table', hr', hall⟩ := (Option.any_eq_true _ _).1 hall
  rw [Bool.and_eq_true, beq_iff_eq] at hall
  obtain ⟨t', ht'⟩ := Option.isSome_iff_exists.1 hall.2
  have ok : ∀ {ε α : Type} {x : Except ε α} {a : α}, x.toOption = some a → x = .ok a := fun {_ _ x _} h => by
    cases x <;> cases h
    rfl
  obtain ⟨table, t, listed, listed', hr, -, -, -, hlisted', hrows, -, hprefix, hlowered, -⟩ :=
    (appending_keeps p q).2.2 table' t' hr' (ok ht')
  obtain ⟨-, rfl⟩ := readingOf_accepted_iff.1 hr
  exact ⟨p, q, table', t', listed, listed', ok hp, ok hq, hr', ok ht', hlisted', hrows.trans hall.1, hprefix,
    hlowered⟩

end ShaderLayout.Compilation
