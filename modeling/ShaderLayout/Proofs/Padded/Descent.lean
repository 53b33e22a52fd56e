import ShaderLayout.Proofs.Padded.Footprint
import ShaderLayout.Proofs.Padded.Stopping

/-!
Which references a table of layouts rules out. A layout is looked up for every member of a struct and for
the element of an array without a stride of its own, so those come before the type that mentions them. The
element of an array with its own stride is not looked up; where it comes before too, every lowering ends.
-/

namespace ShaderLayout

def Shape.parts : Shape → List Handle
  | .array base _ none => [base]
  | .struct members => members.map StructMember.type
  | _ => []

lemma Shape.references_cases (s : Shape) :
    s.references = s.parts ∨ ∃ base length stride, s = .array base length (some stride) := by
  cases s with
  | array base length stride =>
    cases stride with
    | none => exact .inl rfl
    | some stride => exact .inr ⟨base, length, stride, rfl⟩
  | _ => exact .inl rfl

namespace Padded

open Layout

def Refers (types : Arena GpuType) (r h : Handle) : Prop :=
  ∃ type, types.get? h = some type ∧ r ∈ type.shape.references

variable {types : Arena GpuType} {constants : Arena Constant} {t : Layouts}

lemma Lays.part_lt {s : Shape} {l : Layout} (h : Lays t constants s l) :
    ∀ r ∈ s.parts, r.index < t.size := by
  cases h with
  | array hn hs =>
    cases hs with
    | given => simp [Shape.parts]
    | natural hl =>
      simp only [Shape.parts, List.mem_singleton, forall_eq]
      exact (Array.getElem?_eq_some_iff.1 hl).1
  | struct he =>
    simp only [Shape.parts, List.mem_map, forall_exists_index, and_imp, forall_apply_eq_imp_iff₂]
    exact Extent.member_lt he
  | _ => simp [Shape.parts]

lemma Prefix.part_lt (hp : Prefix types constants types.size t) {h : Handle} {type : GpuType}
    (hh : types.get? h = some type) : ∀ r ∈ type.shape.parts, r.index < h.index := by
  intro r hr
  have hi : h.index < t.size := hp.size_eq ▸ Arena.index_lt_of_get? hh
  -- The type was laid out over the layouts before its own.
  have ha := hp.accepts h.index type _ hh (Array.getElem?_eq_getElem hi)
  have hlt := Lays.part_lt ha.lays r hr
  simp only [Array.take_eq_extract, Array.size_extract] at hlt
  omega

lemma Prefix.refuses_of_part {k : Nat} (hp : Prefix types constants k t) {type : GpuType}
    {r : Handle} (hr : r ∈ type.shape.parts) (hle : k ≤ r.index)
    (hn : ∀ base length stride, type.shape = .array base length stride → ∃ n, Count constants length n) :
    ∃ r ∈ type.shape.parts, k ≤ r.index ∧ Refuses t constants ⟨k⟩ type (.notLaidOut r k) := by
  have hsize := hp.size_eq
  have hnot : ∀ l, ¬ Lays t constants type.shape l := by
    intro l hl
    have := Lays.part_lt hl r hr
    omega
  cases ho : ofType t constants ⟨k⟩ type with
  | ok l => exact absurd (ofType_eq_ok_iff.1 ho).lays (hnot l)
  | error e =>
    cases ofType_eq_error_iff.1 ho with
    | zeroAlignment hl _ => exact absurd hl (hnot _)
    | sizeOverflow hl _ _ => exact absurd hl (hnot _)
    | raised he =>
      have href : Refuses t constants ⟨k⟩ type e := .raised he
      generalize hs : type.shape = s at he hn
      cases he with
      | lengthMissing hc =>
        obtain ⟨_, _ | ⟨hv, _⟩⟩ := hn _ _ _ rfl
        rw [hc] at hv
        cases hv
      | lengthNotInteger hv hi =>
        obtain ⟨_, _ | ⟨hv', hn⟩⟩ := hn _ _ _ rfl
        rw [hv] at hv'
        cases hv'
        exact absurd hn (hi _)
      | elementMissing _ hb => exact ⟨_, List.mem_singleton.2 rfl, hsize ▸ hb, hsize ▸ href⟩
      | memberMissing _ hm =>
        exact ⟨_, List.mem_map_of_mem (List.mem_append_right _ List.mem_cons_self), hsize ▸ hm, hsize ▸ href⟩

lemma Descends.wellFounded (hd : Descends types) : WellFounded (Refers types) := by
  refine Subrelation.wf (r := InvImage (· < ·) Handle.index) ?_ (InvImage.wf _ Nat.lt_wfRel.wf)
  rintro r h ⟨type, hh, hr⟩
  exact hd h type hh r hr

lemma ofError_ne_endless (e : LayoutError) : Failure.ofError e ≠ .endless := by
  rw [Failure.ofError]
  split <;> simp

lemma ofScalar_ne_endless {s : Scalar} {e : Failure} (h : ofScalar s = .error e) : e ≠ .endless := by
  rintro rfl
  rw [ofScalar] at h
  split at h
  · split_ifs at h <;> cases h
  · split_ifs at h
    cases h

lemma countedSize_ne_endless {p : Placement} {e : Failure} (h : p.countedSize = .error e) : e ≠ .endless := by
  rintro rfl
  rw [Placement.countedSize] at h
  split_ifs at h
  cases h

lemma Blocks.ne_endless {h : Handle} {s : Shape} {e : Failure} (hb : Blocks t h s e) : e ≠ .endless := by
  cases hb with
  | scalar he => exact ofScalar_ne_endless he
  | vector he => exact ofScalar_ne_endless he
  | matrix he => exact ofScalar_ne_endless he
  | size _ _ he => exact countedSize_ne_endless he
  | array | element | placing | member | struct => exact ofError_ne_endless _

/-- Of an accepted table the parts of a type come before it; a part that does not is an error. Once the
elements of arrays with a stride of their own come before too, no type refers back to itself, and no lowering
is endless. -/
theorem references_descend (types : Arena GpuType) (constants : Arena Constant) :
    (∀ t, Layout.table types constants = .ok t →
      (∀ h type, types.get? h = some type → ∀ r ∈ type.shape.parts, r.index < h.index) ∧
        ((∀ h type base length stride, types.get? h = some type → type.shape = .array base length (some stride) →
            base.index < h.index) →
          WellFounded (Refers types) ∧
            ∀ calls h, ((lower types t h).run.run (cacheAfter types t calls)).1 ≠ .error .endless)) ∧
      ∀ k t type, Prefix types constants k t → types.get? ⟨k⟩ = some type →
        (∃ r ∈ type.shape.parts, k ≤ r.index) →
        (∀ base length stride, type.shape = .array base length stride → ∃ n, Count constants length n) →
        ∃ r ∈ type.shape.parts, k ≤ r.index ∧
          Layout.table types constants = .error (surfaced (.notLaidOut r k)) := by
  refine ⟨fun t ht => ?_, fun k t type hp hk hlate hn => ?_⟩
  · have hp := table_prefix ht
    refine ⟨fun h type hh => Prefix.part_lt hp hh, fun hstrided => ?_⟩
    have hd : Descends types := by
      intro h type hh r hr
      obtain hparts | ⟨base, length, stride, hs⟩ := type.shape.references_cases
      · exact Prefix.part_lt hp hh r (hparts ▸ hr)
      · rw [hs, Shape.references, List.mem_singleton] at hr
        exact hr ▸ hstrided h type base length stride hh hs
    refine ⟨hd.wellFounded, fun calls h he => ?_⟩
    have hstops := lower_stops (E := (· ≠ .endless)) (t := t) hd (fun _ _ _ _ hb => hb.ne_endless)
      (h := h) fun _ => ofError_ne_endless _
    exact hstops _ (sound_cacheAfter types t calls) _ he rfl
  · obtain ⟨r, hr, hle⟩ := hlate
    obtain ⟨r, hr, hle, he⟩ := Prefix.refuses_of_part hp hr hle hn
    have hf : FailsAt types constants k t (.notLaidOut r k) := ⟨hp, type, hk, he⟩
    exact ⟨r, hr, hle, hf.table⟩

theorem references_descend_struct :
    let types : Arena GpuType := .ofList [⟨.scalar ⟨.float, 4⟩, none⟩,
      ⟨.array ⟨0⟩ .dynamic (some 16), none⟩, ⟨.struct [⟨⟨1⟩, some "a", none, none⟩], some "S"⟩]
    let t : Layouts := #[⟨4, 4⟩, ⟨0, 16⟩, ⟨0, 16⟩]
    let late : Arena GpuType := .ofList [⟨.array ⟨1⟩ .dynamic none, none⟩, ⟨.scalar ⟨.float, 4⟩, none⟩]
    (Layout.table types .empty = .ok t ∧ WellFounded (Refers types) ∧
      ((lower types t ⟨2⟩).run.run (cacheAfter types t [])).1 ≠ .error .endless) ∧
      Layout.table late .empty = .error (.layout (.notLaidOut ⟨1⟩ 0)) := by
  intro types t late
  have ht : Layout.table types .empty = .ok t := by rfl
  have hs : ∀ h type base length stride, types.get? h = some type →
      type.shape = .array base length (some stride) → base.index < h.index := by
    rintro ⟨_ | _ | _ | i⟩ type base length stride h hs
    all_goals simp [types, Arena.get?, Arena.ofList] at h
    all_goals subst h
    all_goals cases hs
    exact Nat.zero_lt_one
  obtain ⟨hw, hne⟩ := ((references_descend types .empty).1 t ht).2 hs
  refine ⟨⟨ht, hw, hne [] ⟨2⟩⟩, ?_⟩
  have hlate : ∃ r ∈ Shape.parts (.array ⟨1⟩ .dynamic none), 0 ≤ r.index :=
    ⟨⟨1⟩, List.mem_singleton.2 rfl, Nat.zero_le _⟩
  have hcount : ∀ base length stride, Shape.array ⟨1⟩ .dynamic none = .array base length stride →
      ∃ n, Count .empty length n := by
    intro base length stride h
    cases h
    exact ⟨0, .dynamic⟩
  obtain ⟨r, hr, -, he⟩ := (references_descend late .empty).2 0 #[] _ (.nil ..) rfl hlate hcount
  obtain rfl := List.mem_singleton.1 hr
  rwa [surfaced_of_small (by decide)] at he

theorem strided_array_refers_to_itself :
    let types : Arena GpuType := .ofList [⟨.array ⟨0⟩ .dynamic (some 4), none⟩]
    let t : Layouts := #[⟨0, 4⟩]
    Layout.table types .empty = .ok t ∧ Refers types ⟨0⟩ ⟨0⟩ ∧ ¬ WellFounded (Refers types) ∧
      ((lower types t ⟨0⟩).run.run []).1 = .error .endless := by
  intro types t
  have hself : Refers types ⟨0⟩ ⟨0⟩ := ⟨_, rfl, List.mem_singleton.2 rfl⟩
  exact ⟨rfl, hself, fun hw => hw.irrefl.irrefl _ hself, rfl⟩

end Padded

end ShaderLayout
