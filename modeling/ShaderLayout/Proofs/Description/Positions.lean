import ShaderLayout.Proofs.Description.Mirroring
import ShaderLayout.Proofs.Description.Naming
import ShaderLayout.Proofs.Description.Parsing

namespace ShaderLayout.Description

open Grammar (Node Ordered Part Sentence regionOf spanOf)

/-- The tokens of a text that is read, and what is skipped between them, are the text; the region of each delimits it
and nothing else; the trees span their tokens, so that they are nested and in order; and whatever is found wrong with
the text stands at one of them. -/
theorem positions_exact {source : String} {is : List Item} (h : parse source = .ok is) (filename : String) :
    ∃ ts, tokens .origin source.toList = (ts, .finished) ∧ Sentence ts (.ofItems is) ∧
      (∃ first, ∃ rest : List (Token × List Char), rest.map Prod.fst = ts ∧ Skipped first ∧
        (∀ e ∈ rest, Skipped e.2) ∧ source.toList = first ++ rest.flatMap fun e => e.1.text.toList ++ e.2) ∧
      (∀ t ∈ ts, ∀ text, Delimits source.toList t.region text ↔ text = t.text.toList) ∧
      Ordered ts ∧
      (∀ o, Part o (.ofItems is) → ∃ us, us <:+: ts ∧ Node us o ∧ regionOf o = spanOf us) ∧
      (∀ label span children, Part (.rule label span children) (.ofItems is) →
        (∀ o ∈ children, ∀ r ∈ regionOf o, ∃ r' ∈ span, r'.start ≤ r.start ∧ r.stop ≤ r'.stop) ∧
          children.Pairwise fun a b => ∀ r ∈ regionOf a, ∀ r' ∈ regionOf b, r.stop ≤ r'.start) ∧
      ∀ d ∈ ((read source).report (.empty (some source) filename)).items,
        ∃ o r, Part o (.ofItems is) ∧ regionOf o = some r ∧ d.span = some r.span := by
  obtain ⟨ts, q, hsplit, hs⟩ := parse_ok_iff.1 ⟨is, h, rfl⟩
  have hord : Ordered ts := ⟨fun t ht => (hsplit.ordered.1 t ht).2, hsplit.ordered.2⟩
  refine ⟨ts, tokens_finished_iff.2 ⟨q, hsplit⟩, hs, hsplit.woven, fun t ht text => ?_, hord, fun o ho => ?_,
    fun label span children ho => ?_, fun d hd => ?_⟩
  · have hd : Delimits source.toList t.region t.text.toList := Splits.delimits [] hsplit t ht
    constructor
    · exact fun hd' => hd'.unique hd
    · rintro rfl
      exact hd
  · obtain ⟨us, hus, hn⟩ := hs.node.part ho
    exact ⟨us, hus, hn, hn.region⟩
  · obtain ⟨us, hus, hn⟩ := hs.node.part ho
    have hord' := hord.of_infix hus
    refine ⟨fun o ho r hr => ?_, ?_⟩
    · exact hn.within hord' ho hr
    · cases hn with
      | rule _ _ hd => exact hd.spread.before hord'
  · rw [read_of_parse h, Reading.report, addTo_foldl, Report.empty, List.nil_append] at hd
    obtain ⟨f, hf, rfl⟩ := List.mem_map.1 hd
    obtain ⟨o, ho, hr⟩ := (build_mirrors is).1 f hf
    exact ⟨o, f.region, ho, hr, rfl⟩

theorem positions_exact_comment : ∃ source is, ∃ ts : List Token, ∃ d o r, parse source = .ok is ∧
    ts.length = 12 ∧ (∀ t ∈ ts, Delimits source.toList t.region t.text.toList) ∧
      d ∈ ((read source).report (.empty (some source) "")).items ∧ Part o (.ofItems is) ∧ regionOf o = some r ∧
      d.span = some r.span := by
  let source := "// é\r\ntype S = struct {};\ntype S = f32;"
  have hall : ((parse source).isOk && (tokens .origin source.toList).1.length == 12 &&
      !((read source).report (.empty (some source) "")).items.isEmpty) = true := by
    decide +kernel
  rw [Bool.and_eq_true, Bool.and_eq_true, beq_iff_eq, Bool.not_eq_true', List.isEmpty_eq_false_iff_exists_mem]
    at hall
  obtain ⟨⟨hok, hlength⟩, d, hd⟩ := hall
  cases hr : parse source with
  | error fault =>
    rw [hr] at hok
    cases hok
  | ok is =>
    obtain ⟨ts, hts, -, -, hdelimits, -, -, -, hreport⟩ := positions_exact hr ""
    rw [hts] at hlength
    obtain ⟨o, r, ho, hregion, hspan⟩ := hreport d hd
    exact ⟨source, is, ts, d, o, r, hr, hlength, fun t ht => (hdelimits t ht _).2 rfl, hd, ho, hregion, hspan⟩

end ShaderLayout.Description
