import ShaderLayout.Diagnostic.Render
import ShaderLayout.Proofs.Number.Numeral
import ShaderLayout.Proofs.Text.Escape
import ShaderLayout.Proofs.Text.Line

/-!
Colours in reports. Without its control sequences a report in colours is the report without colours, except that
a guide drawn in colours has a gutter of one blank, and a guide drawn without has one of two.
-/

namespace ShaderLayout

open Text
open Text.Escape (Leaves plain)

namespace Report

def texts (r : Report) : List String :=
  r.source.toList ++ r.filename :: r.items.flatMap fun d => d.filename.toList ++ [d.code, d.message]

def Unescaped (r : Report) : Prop := ∀ s ∈ r.texts, '\x1b' ∉ s.toList

instance (r : Report) : Decidable r.Unescaped := inferInstanceAs (Decidable (∀ s ∈ r.texts, '\x1b' ∉ s.toList))

def twofoldItem (d : Diagnostic) : Diagnostic := { d with kind := if d.kind = .error then .error else .warning }

def twofold (r : Report) : Report := { r with items := r.items.map twofoldItem }

def Shown (r : Report) (d : Diagnostic) : Prop := d.span ≠ none ∧ r.sourceLines ≠ none

def markLine (gutter : Nat) (col : Int) : String :=
  "  │" ++ repeated gutter ' ' ++ repeated ((max 1 col).toNat - 1) ' ' ++ "┯"

def cornerLine (col : Int) : String := "  ╰" ++ repeated (max 1 col).toNat '─' ++ "╯"

def guided (gutter : Nat) (head line : String) (col : Int) : List String :=
  ["  ╭──┤ " ++ head, "  │" ++ repeated gutter ' ' ++ line, markLine gutter col, cornerLine col]

def guidedLines (r : Report) (gutter : Nat) (d : Diagnostic) : List String :=
  match d.span, r.sourceLines with
  | some s, some lines => guided gutter (r.head ⟨false, true⟩ d) (lineText lines s.line) s.col
  | _, _ => [r.head ⟨false, true⟩ d]

def guidedText (r : Report) (gutter : Nat) : String :=
  String.intercalate "\n" (r.items.flatMap (r.guidedLines gutter))

variable {r : Report} {d : Diagnostic}

section Texts

lemma escape_notMem_numeral (n : Int) : '\x1b' ∉ (Number.Numeral.text n).toList := by
  obtain ⟨sign, hs, htext, -⟩ := Number.Numeral.text_toList n
  have hsign : ∀ sign ∈ [[], ['+'], ['-']], '\x1b' ∉ sign := by decide
  rw [htext, List.mem_append, not_or]
  refine ⟨hsign sign hs, fun h => ?_⟩
  have hc := Nat.isDigit_of_mem_toDigits (by omega) le_rfl h
  exact absurd hc (by decide)

lemma notMem_repeated (n : Nat) {c d : Char} (h : d ≠ c) : d ∉ (repeated n c).toList := by
  rw [repeated, String.toList_ofList, List.mem_replicate]
  exact fun hd => h hd.2

lemma escape_notMem_sentence {m : String} (hm : '\x1b' ∉ m.toList) : '\x1b' ∉ (sentence m).toList := by
  rw [sentence]
  split
  · exact hm
  · rw [String.toList_append, List.mem_append, not_or]
    exact ⟨hm, by decide⟩

lemma Unescaped.item (hr : r.Unescaped) (hd : d ∈ r.items) {s : String}
    (hs : s ∈ d.filename.toList ++ [d.code, d.message]) : '\x1b' ∉ s.toList := by
  apply hr
  rw [texts, List.mem_append, List.mem_cons, List.mem_flatMap]
  exact .inr (.inr ⟨d, hd, hs⟩)

lemma Unescaped.location (hr : r.Unescaped) (hd : d ∈ r.items) : '\x1b' ∉ (r.location d).toList := by
  have hreport : '\x1b' ∉ r.filename.toList := hr _ (by simp [texts])
  have hspan : ∀ file : String, '\x1b' ∉ file.toList → ∀ s : Span,
      '\x1b' ∉ (file ++ ":" ++ Number.Numeral.text s.line ++ ":" ++ Number.Numeral.text s.col).toList := by
    intro file hfile s
    simp only [String.toList_append, List.mem_append, not_or]
    exact ⟨⟨⟨⟨hfile, by decide⟩, escape_notMem_numeral _⟩, by decide⟩, escape_notMem_numeral _⟩
  have hitem : ∀ f, d.filename = some f → '\x1b' ∉ (if f = "" then r.filename else f).toList := by
    intro f hf
    by_cases he : f = ""
    · simpa [he] using hreport
    · simpa [he] using hr.item hd (s := f) (by simp [hf])
  rw [Report.location]
  cases hf : d.filename with
  | none =>
    cases d.span with
    | none => exact hreport
    | some s => exact hspan _ hreport s
  | some f =>
    cases d.span with
    | none => exact hitem f hf
    | some s => exact hspan _ (hitem f hf) s

lemma Unescaped.lineText (hr : r.Unescaped) {lines : List (List Char)} (hl : r.sourceLines = some lines) (n : Int) :
    '\x1b' ∉ (lineText lines n).toList := by
  have hlines : ∀ line ∈ lines, '\x1b' ∉ line := by
    intro line hline he
    rw [sourceLines] at hl
    cases hs : r.source with
    | none => simp [hs] at hl
    | some s =>
      by_cases hempty : s = ""
      · simp [hs, hempty] at hl
      · obtain rfl : Line.split s.toList = lines := by simpa [hs, hempty] using hl
        exact hr s (by simp [texts, hs]) (Line.split_subset hline he)
  rw [Report.lineText]
  split
  · rw [String.toList_ofList, List.getD_eq_getElem?_getD]
    cases hget : lines[(n - 1).toNat]? with
    | none => exact List.not_mem_nil
    | some line => exact hlines line (List.mem_of_getElem? hget)
  · simp

end Texts

section Lines

lemma codes_leave : (Leaves reset "" ∧ Leaves bold "" ∧ Leaves dim "") ∧
    Leaves red "" ∧ Leaves yellow "" ∧ Leaves cyan "" ∧ Leaves gray "" :=
  ⟨⟨.graphic (p := ['0']) rfl rfl, .graphic (p := ['1']) rfl rfl, .graphic (p := ['2']) rfl rfl⟩,
    .graphic (p := ['3', '1']) rfl rfl, .graphic (p := ['3', '3']) rfl rfl, .graphic (p := ['3', '6']) rfl rfl,
    .graphic (p := ['9', '0']) rfl rfl⟩

lemma markColor_leaves (d : Diagnostic) : Leaves (markColor d) "" := by
  obtain ⟨-, hred, hyellow, -⟩ := codes_leave
  rw [markColor]
  split
  · exact hred
  · exact hyellow

lemma head_leaves (hr : r.Unescaped) (hd : d ∈ r.items) (unicode unicode' : Bool) :
    Leaves (r.head ⟨true, unicode⟩ d) (r.twofold.head ⟨false, unicode'⟩ (twofoldItem d)) := by
  obtain ⟨⟨hreset, hbold, hdim⟩, -, -, hcyan, -⟩ := codes_leave
  have hkind : Leaves (bold ++ markColor d ++ (if d.kind = .error then "error" else "warning") ++ reset)
      (twofoldItem d).kind.tag := by
    have htag : (twofoldItem d).kind.tag = if d.kind = .error then "error" else "warning" := by
      rw [twofoldItem]
      split
      · rfl
      · rfl
    rw [htag]
    refine ((hbold.before (markColor_leaves d)).before (.refl ?_)).after hreset
    split
    · decide
    · decide
  have hlocation : Leaves (cyan ++ r.location d ++ reset) (r.location d) :=
    (hcyan.before (.refl (hr.location hd))).after hreset
  have hcode : Leaves d.code d.code := .refl (hr.item hd (by simp))
  have hmessage : Leaves (sentence d.message) (sentence d.message) :=
    .refl (escape_notMem_sentence (hr.item hd (by simp)))
  have hstart := (hlocation.append (.refl (s := ": ") (by decide))).append hkind
  have hmiddle := (((hstart.append (.refl (s := " [") (by decide))).after hdim).append hcode).after hreset
  exact (hmiddle.append (.refl (s := "]: ") (by decide))).append hmessage

lemma plainSnippet_leaves {head head' line : String} (hh : Leaves head head') (hl : '\x1b' ∉ line.toList)
    (d d' : Diagnostic) (col : Int) :
    List.Forall₂ Leaves (snippet ⟨true, false⟩ d head line col) (snippet ⟨false, false⟩ d' head' line col) := by
  have hgap := notMem_repeated ((max 1 col).toNat - 1) (c := ' ') (d := '\x1b') (by decide)
  refine .cons hh (.cons ?_ (.cons ?_ .nil))
  · exact .append (.refl (by decide)) (.refl hl)
  · exact .append (.append (.refl (by decide)) (.refl hgap)) (.refl (by decide))

lemma snippet_leaves {head head' line : String} (hh : Leaves head head') (hl : '\x1b' ∉ line.toList)
    (d : Diagnostic) (col : Int) :
    List.Forall₂ Leaves (snippet ⟨true, true⟩ d head line col) (guided 1 head' line col) := by
  obtain ⟨⟨hreset, -⟩, -, -, -, hgray⟩ := codes_leave
  have hgap := notMem_repeated ((max 1 col).toNat - 1) (c := ' ') (d := '\x1b') (by decide)
  have hguide := notMem_repeated (max 1 col).toNat (c := '─') (d := '\x1b') (by decide)
  have hbar : Leaves (gray ++ "  │" ++ reset ++ " ") ("  │" ++ repeated 1 ' ') :=
    ((hgray.before (.refl (by decide))).after hreset).append (.refl (by decide))
  refine .cons ?_ (.cons ?_ (.cons ?_ (.cons ?_ .nil)))
  · exact ((hgray.before (.refl (by decide))).after hreset).append hh
  · exact hbar.append (.refl hl)
  · exact (((hbar.after (markColor_leaves d)).append (.refl hgap)).append (.refl (by decide))).after hreset
  · have hedge := ((hgray.before (.refl (s := "  ╰") (by decide))).append (.refl hguide)).after hreset
    exact ((hedge.after (markColor_leaves d)).append (.refl (by decide))).after hreset

lemma snippet_eq_guided (d : Diagnostic) (head line : String) (col : Int) :
    snippet ⟨false, true⟩ d head line col = guided 2 head line col := by
  have hbar : "  │" ++ repeated 2 ' ' = "  │  " := by decide
  simp only [snippet, guided, markLine, cornerLine, hbar]

end Lines

section Items

lemma itemLines_leave (hr : r.Unescaped) {style : Style} {head' : String} {shown : String → Int → List String}
    (hh : Leaves (r.head style d) head') (hs : ∀ line col, '\x1b' ∉ line.toList →
      List.Forall₂ Leaves (snippet style d (r.head style d) line col) (shown line col)) :
    List.Forall₂ Leaves (r.itemLines style d) (match d.span, r.sourceLines with
      | some s, some lines => shown (lineText lines s.line) s.col
      | _, _ => [head']) := by
  rw [itemLines]
  cases d.span with
  | none => exact .cons hh .nil
  | some s =>
    cases hl : r.sourceLines with
    | none => exact .cons hh .nil
    | some lines => exact hs _ s.col (hr.lineText hl s.line)

lemma itemLines_eq_guidedLines (r : Report) : r.itemLines ⟨false, true⟩ = r.guidedLines 2 := by
  funext d
  rw [itemLines, guidedLines]
  cases d.span with
  | none => rfl
  | some s =>
    cases r.sourceLines with
    | none => rfl
    | some lines => exact snippet_eq_guided ..

lemma render_leaves {style : Style} {f : Diagnostic → List String}
    (h : ∀ d ∈ r.items, List.Forall₂ Leaves (r.itemLines style d) (f (twofoldItem d))) :
    plain (r.render style) = String.intercalate "\n" (r.twofold.items.flatMap f) := by
  refine Leaves.plain_eq (Leaves.intercalate (by decide) ?_)
  rw [twofold, List.flatMap_map]
  refine List.rel_flatMap (R := fun d d' => d ∈ r.items ∧ d = d') ?_ ?_
  · exact List.forall₂_same.2 fun d hd => ⟨hd, rfl⟩
  · rintro d _ ⟨hd, rfl⟩
    exact h d hd

end Items

section Gutters

def extent (lines : List String) : Nat := (lines.map fun line => line.length + 1).sum

lemma length_intercalate {lines : List String} (h : lines ≠ []) :
    (String.intercalate "\n" lines).length + 1 = extent lines := by
  induction lines with
  | nil => exact (h rfl).elim
  | cons line lines ih =>
    cases lines with
    | nil => simp [extent]
    | cons line' lines =>
      have hrest := ih (List.cons_ne_nil line' lines)
      rw [String.intercalate_cons_cons, String.length_append, String.length_append, extent, List.map_cons,
        List.sum_cons]
      rw [extent] at hrest
      have hfeed : "\n".length = 1 := rfl
      omega

lemma extent_flatMap {α : Type} (f : α → List String) (l : List α) :
    extent (l.flatMap f) = (l.map fun a => extent (f a)).sum := by
  induction l with
  | nil => rfl
  | cons a l ih =>
    rw [List.flatMap_cons, extent, List.map_append, List.sum_append, List.map_cons, List.sum_cons, ← ih]
    rfl

lemma extent_guided (gutter : Nat) (head line : String) (col : Int) :
    extent (guided gutter head line col) = extent (guided 0 head line col) + 2 * gutter := by
  simp only [extent, guided, markLine, repeated, List.map_cons, List.map_nil, List.sum_cons, List.sum_nil,
    String.length_append, String.length_ofList, List.length_replicate]
  omega

lemma guidedLines_of_not_shown (h : ¬ r.Shown d) (gutter : Nat) :
    r.guidedLines gutter d = [r.head ⟨false, true⟩ d] := by
  rw [guidedLines]
  cases hspan : d.span with
  | none => rfl
  | some s =>
    cases hl : r.sourceLines with
    | none => rfl
    | some lines => exact (h ⟨by simp [hspan], by simp [hl]⟩).elim

lemma extent_guidedLines_lt (h : r.Shown d) : extent (r.guidedLines 1 d) < extent (r.guidedLines 2 d) := by
  obtain ⟨hspan, hl⟩ := h
  obtain ⟨s, hs⟩ := Option.ne_none_iff_exists'.1 hspan
  obtain ⟨lines, hlines⟩ := Option.ne_none_iff_exists'.1 hl
  simp only [guidedLines, hs, hlines]
  rw [extent_guided 1, extent_guided 2]
  omega

lemma guidedText_eq_iff (r : Report) : r.guidedText 1 = r.guidedText 2 ↔ ∀ d ∈ r.items, ¬ r.Shown d := by
  constructor
  · intro h d hd hshown
    have hne : ∀ gutter, r.items.flatMap (r.guidedLines gutter) ≠ [] := by
      intro gutter hnil
      have hblock := List.flatMap_eq_nil_iff.1 hnil d hd
      rw [guidedLines] at hblock
      split at hblock
      · cases hblock
      · cases hblock
    have hlength := congrArg (fun s : String => s.length + 1) h
    simp only [guidedText, length_intercalate (hne _), extent_flatMap] at hlength
    have hle : ∀ d ∈ r.items, extent (r.guidedLines 1 d) ≤ extent (r.guidedLines 2 d) := by
      intro d _
      by_cases hs : r.Shown d
      · exact (extent_guidedLines_lt hs).le
      · rw [guidedLines_of_not_shown hs, guidedLines_of_not_shown hs]
    have hlt := List.sum_lt_sum _ _ hle ⟨d, hd, extent_guidedLines_lt hshown⟩
    exact hlt.ne hlength
  · intro h
    rw [guidedText, guidedText]
    refine congrArg _ (List.flatMap_congr fun d hd => ?_)
    rw [guidedLines_of_not_shown (h d hd), guidedLines_of_not_shown (h d hd)]

lemma idxOf_last {s : String} {c : Char} (hc : c ∉ s.toList) (t : String) (ht : t.toList = [c]) :
    (s ++ t).toList.idxOf c = s.length := by
  rw [String.toList_append, ht, List.idxOf_append_of_notMem hc, List.idxOf_cons_self, String.length_toList,
    Nat.add_zero]

lemma mark_above_corner (gutter : Nat) (col : Int) :
    (markLine gutter col).toList.idxOf '┯' + 1 = (cornerLine col).toList.idxOf '╯' + gutter := by
  have hmark : '┯' ∉ ("  │" ++ repeated gutter ' ' ++ repeated ((max 1 col).toNat - 1) ' ').toList := by
    simp only [String.toList_append, List.mem_append, not_or]
    exact ⟨⟨by decide, notMem_repeated _ (by decide)⟩, notMem_repeated _ (by decide)⟩
  have hcorner : '╯' ∉ ("  ╰" ++ repeated (max 1 col).toNat '─').toList := by
    simp only [String.toList_append, List.mem_append, not_or]
    exact ⟨by decide, notMem_repeated _ (by decide)⟩
  have hbar : "  │".length = 3 := rfl
  have hedge : "  ╰".length = 3 := rfl
  rw [markLine, cornerLine, idxOf_last hmark "┯" rfl, idxOf_last hcorner "╯" rfl]
  simp only [String.length_append, repeated, String.length_ofList, List.length_replicate, hbar, hedge]
  omega

end Gutters

/-- What colours change. Taken away again they leave the report without colours, where kinds other than errors
count as warnings; but as the gutter of a guide is narrower in colours, this is so in line-drawing characters only
if no line of the source is shown. The mark is above the corner in colours, and one column to the right without. -/
theorem colors_only_color (hr : r.Unescaped) :
    plain (r.render ⟨true, false⟩) = r.twofold.render ⟨false, false⟩ ∧
      plain (r.render ⟨true, true⟩) = r.twofold.guidedText 1 ∧
      r.twofold.render ⟨false, true⟩ = r.twofold.guidedText 2 ∧
      (plain (r.render ⟨true, true⟩) = r.twofold.render ⟨false, true⟩ ↔ ∀ d ∈ r.items, ¬ r.Shown d) ∧
      ((∀ d ∈ r.items, d.kind = .error ∨ d.kind = .warning) → r.twofold = r) ∧
      ∀ gutter col, (markLine gutter col).toList.idxOf '┯' + 1 = (cornerLine col).toList.idxOf '╯' + gutter := by
  have hplain : plain (r.render ⟨true, false⟩) = r.twofold.render ⟨false, false⟩ := by
    refine render_leaves fun d hd => ?_
    have hhead := head_leaves hr hd false false
    exact itemLines_leave hr hhead fun line col hl => plainSnippet_leaves hhead hl d (twofoldItem d) col
  have hcolored : plain (r.render ⟨true, true⟩) = r.twofold.guidedText 1 := by
    refine render_leaves fun d hd => ?_
    have hhead := head_leaves hr hd true true
    exact itemLines_leave hr hhead fun line col hl => snippet_leaves hhead hl d col
  have hdrawn : r.twofold.render ⟨false, true⟩ = r.twofold.guidedText 2 := by
    rw [render, guidedText, itemLines_eq_guidedLines]
  refine ⟨hplain, hcolored, hdrawn, ?_, fun hk => ?_, mark_above_corner⟩
  · rw [hcolored, hdrawn, guidedText_eq_iff, twofold]
    exact List.forall_mem_map
  · have hitem : ∀ d ∈ r.items, twofoldItem d = id d := by
      intro d hd
      obtain ⟨kind, code, message, span, filename⟩ := d
      obtain rfl | rfl : kind = .error ∨ kind = .warning := hk _ hd
      · rfl
      · rfl
    rw [twofold, List.map_congr_left hitem, List.map_id]

theorem colors_only_color_warning :
    let r : Report := ⟨some "struct S \x7b\x7d", "t.types",
      [⟨.warning, "CW1001", "struct 'S' has no members", some ⟨1, 1, 1, 12⟩, some "t.types"⟩]⟩
    r.Unescaped ∧ plain (r.render ⟨true, false⟩) = r.render ⟨false, false⟩ := by
  intro r
  have hr : r.Unescaped := by decide +kernel
  obtain ⟨hplain, -, -, -, hkinds, -⟩ := colors_only_color hr
  have htwofold : r.twofold = r := hkinds (by decide)
  rw [htwofold] at hplain
  exact ⟨hr, hplain⟩

theorem gutters_differ :
    let r : Report := ⟨some "type A = B;", "t.types",
      [⟨.error, "CE1003", "unknown name 'B'", some ⟨1, 10, 1, 11⟩, some "t.types"⟩]⟩
    r.Unescaped ∧ plain (r.render ⟨true, true⟩) =
        "  ╭──┤ t.types:1:10: error [CE1003]: unknown name 'B'.\n  │ type A = B;\n  │          ┯\n  ╰──────────╯" ∧
      r.render ⟨false, true⟩ =
        "  ╭──┤ t.types:1:10: error [CE1003]: unknown name 'B'.\n  │  type A = B;\n  │           ┯\n  ╰──────────╯" ∧
      plain (r.render ⟨true, true⟩) ≠ r.render ⟨false, true⟩ := by
  decide +kernel

end Report

end ShaderLayout
