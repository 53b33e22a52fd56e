import ShaderLayout.Diagnostic.Render
import ShaderLayout.Proofs.Description.Naming
import ShaderLayout.Proofs.Description.Mirroring
import ShaderLayout.Proofs.Description.Parsing
import ShaderLayout.Proofs.Description.Writing
import ShaderLayout.Proofs.Text.Line

namespace ShaderLayout

open Text

namespace Description

open Grammar (spanOf_eq_some)

variable {s rest : List Char} {c : Char} {p q : Position} {ts : List Token}

section Lines

lemma exists_feed_line (before after : List Char) (hc : c ≠ '\n') {a : List Char} (ha : '\n' ∉ a) (l : Nat) :
    ∃ n a' b, (⟨l, a.length + 1⟩ : Position).after before = ⟨l + n, a'.length + 1⟩ ∧
      ((a ++ before ++ c :: after).splitOn '\n')[n]? = some (a' ++ c :: b) := by
  induction before generalizing a l with
  | nil =>
    refine ⟨0, a, ?_⟩
    rw [List.append_nil]
    by_cases hafter : '\n' ∈ after
    · obtain ⟨b, r, rfl, hb⟩ := List.eq_append_cons_of_mem hafter
      have hline : '\n' ∉ a ++ c :: b := by simp [ha, hb, hc.symm]
      rw [← List.cons_append, ← List.append_assoc, List.splitOn_append_cons_self_of_not_mem hline]
      exact ⟨b, rfl, rfl⟩
    · have hline : '\n' ∉ a ++ c :: after := by simp [ha, hafter, hc.symm]
      rw [List.splitOn_eq_singleton hline]
      exact ⟨after, rfl, rfl⟩
  | cons d before ih =>
    by_cases hd : d = '\n'
    · subst hd
      obtain ⟨n, a', b, hplace, hline⟩ := ih List.not_mem_nil (l + 1)
      refine ⟨n + 1, a', b, ?_, ?_⟩
      · rw [Nat.add_comm n, ← Nat.add_assoc]
        exact hplace
      · rw [List.append_assoc, List.cons_append, List.splitOn_append_cons_self_of_not_mem ha]
        exact hline
    · obtain ⟨n, a', b, hplace, hline⟩ := ih (a := a ++ [d]) (by simp [ha, Ne.symm hd]) l
      refine ⟨n, a', b, ?_, ?_⟩
      · rw [← hplace, List.length_append, List.length_singleton]
        change Position.after (Position.step _ d) before = _
        rw [Position.step, if_neg hd]
      · rw [← hline, List.append_assoc a [d]]
        rfl

def Stands (s : List Char) (p : Position) : Prop :=
  ∃ before c after, s = before ++ c :: after ∧ Lexeme.isSpace c = false ∧ p = place before

lemma Stands.line (h : Stands s p) : ∃ n a c b, p = ⟨n + 1, a.length + 1⟩ ∧ Lexeme.isSpace c = false ∧
    (Line.feedLines s)[n]? = some (a ++ c :: b) := by
  obtain ⟨before, c, after, rfl, hc, rfl⟩ := h
  have hfeed : c ≠ '\n' := by rintro rfl; cases hc
  have hreturn : c ≠ '\r' := by rintro rfl; cases hc
  obtain ⟨n, a, b, hplace, hline⟩ := exists_feed_line before after hfeed List.not_mem_nil 1
  obtain ⟨b', hb⟩ := Line.shown_append_cons hreturn a b
  refine ⟨n, a, c, b', ?_, hc, ?_⟩
  · rw [← origin_after, Nat.add_comm n]
    exact hplace
  · rw [Line.feedLines, List.getElem?_map, ← hb]
    exact congrArg _ hline

end Lines

section Places

lemma Splits.stands (h : Splits .origin s ts rest q) : ∀ t ∈ ts, Stands s t.region.start := by
  intro t ht
  obtain ⟨before, after, rfl, hregion⟩ := Splits.delimits [] h t ht
  have hspelled := h.spelled t ht
  obtain ⟨c, text, hc⟩ := List.exists_cons_of_ne_nil hspelled.ne_nil
  have hsolid : Solid c := hspelled.solid c (hc ▸ List.mem_cons_self)
  exact ⟨before, c, text ++ after, by rw [hc]; simp, hsolid.1, congrArg Region.start hregion⟩

lemma isSpace_of_stuck (h : Stuck (c :: rest)) : Lexeme.isSpace c = false := by
  by_contra hc
  have hblank : Spells none [c] := .blank (List.cons_ne_nil c []) (by simpa using hc)
  exact h none [c] hblank ⟨rest, rfl⟩

variable {source : String}

lemma fault_stands {fault : Fault} (h : parse source = .error fault) : Stands source.toList fault.position := by
  have hp := h ▸ parse_outcome source
  cases hp with
  | @unfinished ts _ s hsplit hafter hs =>
    -- There is a token, as no token at all is a whole description.
    have hne : ts ≠ [] := by
      rintro rfl
      exact hs [] (Option.some.inj hafter).symm
    have hlast := hsplit.stands _ (List.getLast_mem hne)
    rwa [Fault.position, lastStart, List.getLast?_eq_some_getLast hne]
  | stray hsplit hstuck =>
    obtain ⟨before, hbefore, rfl⟩ := hsplit.stops
    exact ⟨before, _, _, hbefore, isSpace_of_stuck hstuck, origin_after before⟩
  | refused hsplit => exact hsplit.stands _ (by simp)

lemma finding_stands {f : Finding} (hf : f ∈ (read source).findings) : Stands source.toList f.region.start := by
  cases h : parse source with
  | error fault =>
    rw [read, h] at hf
    obtain rfl := List.mem_singleton.1 hf
    exact fault_stands h
  | ok is =>
    obtain ⟨ts, q, hsplit, hs⟩ := parse_ok_iff.1 ⟨is, h, rfl⟩
    rw [read_of_parse h] at hf
    obtain ⟨o, ho, hregion⟩ := (build_mirrors is).1 f hf
    obtain ⟨us, hus, hn⟩ := hs.node.part ho
    rw [hn.region] at hregion
    obtain ⟨t, u, ht, -, hspan⟩ := spanOf_eq_some.1 hregion
    rw [hspan]
    exact hsplit.stands t (hus.subset (List.mem_of_head? ht))

end Places

end Description

namespace Report

open Description (Finding Lexeme Region Stands)

/-- What is shown for a diagnostic: its head, a line of the text, and a mark under the character of the line that the
diagnostic stands at. It is the line that the places count unless it, or a line before it, holds another boundary. -/
inductive Snippet (source : List Char) (head : String) (d : Diagnostic) : List String → Prop
  | mk {s : Span} {n : Nat} {a b : List Char} {c : Char} (hspan : d.span = some s) (hline : s.line = n + 1)
      (hcol : s.col = a.length + 1) (hc : Lexeme.isSpace c = false)
      (hfound : (Line.feedLines source)[n]? = some (a ++ c :: b))
      (hshown : (∀ line ∈ (Line.feedLines source).take (n + 1), Line.Unbroken line) →
        (Line.split source).getD n [] = a ++ c :: b) :
      Snippet source head d
        [head, "  | " ++ String.ofList ((Line.split source).getD n []), "  ` " ++ repeated a.length ' ' ++ "^"]

lemma addTo_foldl_source (fs : List Finding) (r : Report) : (fs.foldl Finding.addTo r).source = r.source := by
  induction fs generalizing r with
  | nil => rfl
  | cons f fs ih => exact ih (f.addTo r)

lemma itemLines_snippet {r : Report} {source : String} (hr : r.source = some source) {d : Diagnostic}
    {region : Region} (hd : d.span = some region.span) (hs : Stands source.toList region.start) :
    Snippet source.toList (r.head ⟨false, false⟩ d) d (r.itemLines ⟨false, false⟩ d) := by
  have hne : source ≠ "" := by
    rintro rfl
    obtain ⟨before, c, after, hempty, -, -⟩ := hs
    simp at hempty
  obtain ⟨n, a, c, b, hplace, hc, hfound⟩ := hs.line
  have hlines : r.sourceLines = some (Line.split source.toList) := by
    rw [sourceLines, hr]
    exact if_neg hne
  have hline : region.span.line = n + 1 := by simp [Region.span, hplace]
  have hcol : region.span.col = a.length + 1 := by simp [Region.span, hplace]
  have hshown (h : ∀ line ∈ (Line.feedLines source.toList).take (n + 1), Line.Unbroken line) :
      (Line.split source.toList).getD n [] = a ++ c :: b := by
    rw [Line.split_getD h, List.getD_eq_getElem?_getD, hfound, Option.getD_some]
  have hblock : r.itemLines ⟨false, false⟩ d = [r.head ⟨false, false⟩ d,
      "  | " ++ String.ofList ((Line.split source.toList).getD n []), "  ` " ++ repeated a.length ' ' ++ "^"] := by
    rw [itemLines, hd, hlines]
    have hfirst : 1 ≤ (n : ℤ) + 1 := by omega
    have hindex : ((n : ℤ) + 1 - 1).toNat = n := by omega
    have hgap : (max 1 ((a.length : ℤ) + 1)).toNat - 1 = a.length := by omega
    simp only [snippet, lineText, hline, hcol, if_pos hfirst, hindex, hgap]
  rw [hblock]
  exact .mk hd hline hcol hc hfound hshown

/-- What is found wrong with a text is shown with a mark under the character that it stands at, and with the line of
this character as far as nothing but `'\n'` ends lines there. -/
theorem snippets_show_lines (source filename : String) :
    let report := (Description.read source).report (.empty (some source) filename)
    ∃ blocks : List (List String), report.render ⟨false, false⟩ = String.intercalate "\n" blocks.flatten ∧
      List.Forall₂ (fun d => Snippet source.toList (report.head ⟨false, false⟩ d) d) report.items blocks := by
  intro report
  refine ⟨report.items.map (report.itemLines ⟨false, false⟩), ?_, ?_⟩
  · rw [render, List.flatMap_def]
  · rw [List.forall₂_map_right_iff, List.forall₂_same]
    intro d hd
    obtain ⟨f, hf, -, hspan⟩ := Description.mem_report hd
    exact itemLines_snippet (addTo_foldl_source ..) hspan (Description.finding_stands hf)

theorem formFeed_hides_line :
    let source := "\x0ctype A = B;"
    let report := (Description.read source).report (.empty (some source) "<input>")
    report.items.map Diagnostic.span = [some ⟨1, 11, 1, 12⟩] ∧
      Line.feedLines source.toList = [source.toList] ∧ source.toList[10]? = some 'B' ∧
      report.render ⟨false, false⟩ = "<input>:1:11: error [CE1003]: unknown name 'B'.\n  | \n  `           ^" := by
  decide +kernel

end Report

end ShaderLayout
