import ShaderLayout.Listing
import ShaderLayout.Proofs.Description.Mirroring
import ShaderLayout.Proofs.Description.Tables

namespace ShaderLayout

namespace Description

def Reading.erase (r : Reading) : Reading := ⟨r.table?, r.findings.map Finding.erase⟩

lemma Reading.accepted?_erase (r : Reading) : r.erase.accepted? = r.accepted? := by
  have herrors : r.erase.hasErrors = r.hasErrors := by
    simp [Reading.hasErrors, Reading.erase, List.any_map, Function.comp_def, Finding.erase]
  rw [Reading.accepted?, Reading.accepted?, herrors]
  rfl

def readingOfParse : Except Fault (List Item) → Reading
  | .error fault => ⟨none, [⟨.malformed fault.text, nowhere⟩]⟩
  | .ok is => readingOf is

lemma read_erase (source : String) : (read source).erase = readingOfParse (eraseParse (parse source)) := by
  cases h : parse source with
  | error fault =>
    rw [read, h, eraseParse, readingOfParse, Fault.text_erase]
    rfl
  | ok is =>
    rw [read_of_parse h, eraseParse, readingOfParse, readingOf, readingOf, (build_mirrors is).2]
    rfl

end Description

def Diagnostic.erase (d : Diagnostic) : Diagnostic := { d with span := none }

def Report.erase (r : Report) : Report := ⟨none, r.filename, r.items.map Diagnostic.erase⟩

def Compilation.erase (c : Compilation) : Compilation := ⟨c.accepted, c.listed, c.report.erase⟩

open Description (Finding Reading)

section Reports

variable {r r' : Report}

lemma Report.emit_alike (h : r.erase = r'.erase) (m : Message) (arguments : Arguments) (span span' : Option Span) :
    (r.emit m arguments span).erase = (r'.emit m arguments span').erase := by
  simp only [Report.erase, Report.mk.injEq, true_and] at h
  simp [Report.emit, Report.add, Report.erase, Diagnostic.erase, h]

lemma addTo_foldl_alike (h : r.erase = r'.erase) {fs fs' : List Finding}
    (hfs : fs.map Finding.erase = fs'.map Finding.erase) :
    (fs.foldl Finding.addTo r).erase = (fs'.foldl Finding.addTo r').erase := by
  induction fs generalizing fs' r r' with
  | nil =>
    obtain rfl := List.map_eq_nil_iff.1 hfs.symm
    exact h
  | cons f fs ih =>
    obtain ⟨f', fs', rfl, hf, hfs⟩ := List.map_eq_cons_iff.1 hfs.symm
    have hproblem : f'.problem = f.problem := (Finding.mk.injEq .. ▸ hf).1
    rw [List.foldl_cons, List.foldl_cons]
    refine ih ?_ hfs.symm
    simp only [Finding.addTo, hproblem]
    exact Report.emit_alike h ..

lemma report_alike {reading reading' : Reading} (h : reading.erase = reading'.erase) (source source' : Option String)
    (filename : String) :
    (reading.report (.empty source filename)).erase = (reading'.report (.empty source' filename)).erase := by
  have hempty : (Report.empty source filename).erase = (Report.empty source' filename).erase := rfl
  exact addTo_foldl_alike hempty (congrArg Reading.findings h)

lemma tryTable_alike (types : Arena GpuType) (constants : Arena Constant) (h : r.erase = r'.erase) :
    (∃ f, Layout.tryTable types constants r = .error f ∧ Layout.tryTable types constants r' = .error f) ∨
      ∃ t q q', Layout.tryTable types constants r = .ok (t, q) ∧ Layout.tryTable types constants r' = .ok (t, q') ∧
        q.erase = q'.erase := by
  rw [Layout.tryTable, Layout.tryTable]
  cases Layout.table types constants with
  | ok t => exact .inr ⟨some t, r, r', rfl, rfl, h⟩
  | error f =>
    cases f with
    | layout e => exact .inr ⟨none, _, _, rfl, rfl, Report.emit_alike h ..⟩
    | _ => exact .inl ⟨_, rfl, rfl⟩

end Reports

namespace Compilation

open Description

lemma compile_alike {source source' : String} (h : (read source).erase = (read source').erase) (filename : String) :
    (compile source filename).map Compilation.erase = (compile source' filename).map Compilation.erase := by
  have hreport := report_alike h (some source) (some source') filename
  have haccepted : (read source).accepted? = (read source').accepted? := by
    rw [← Reading.accepted?_erase, h, Reading.accepted?_erase]
  simp only [compile, haccepted]
  cases (read source').accepted? with
  | none => exact congrArg (fun q => Except.ok (Compilation.mk false none q)) hreport
  | some table =>
    simp only
    obtain ⟨f, hr, hr'⟩ | ⟨t, q, q', hr, hr', hq⟩ := tryTable_alike table.types table.constants hreport
    · rw [hr, hr']
    · rw [hr, hr']
      cases t with
      | none => exact congrArg (fun q => Except.ok (Compilation.mk true none q)) hq
      | some t =>
        let listing := listTable table.types table.constants t
        change (listing >>= fun listed => Except.ok ⟨true, some listed, q⟩).map Compilation.erase =
          (listing >>= fun listed => Except.ok ⟨true, some listed, q'⟩).map Compilation.erase
        cases listing with
        | error f => rfl
        | ok listed => exact congrArg (fun q => Except.ok (Compilation.mk true (some listed) q)) hq

/-- However the same tokens are written down, they are found again, and reading them, laying out the types and
listing them gives the same; so are the same diagnostics, but for their places. -/
theorem formatting_is_irrelevant {words : List Word} {source source' : String} (h : Written words source.toList)
    (h' : Written words source'.toList) (filename : String) :
    (∃ ts, tokens .origin source.toList = (ts, .finished) ∧ ts.map Token.word = words) ∧
      eraseParse (parse source) = eraseParse (parse source') ∧ (read source).table? = (read source').table? ∧
      (read source).findings.map Finding.problem = (read source').findings.map Finding.problem ∧
      (compile source filename).map Compilation.erase = (compile source' filename).map Compilation.erase := by
  have hparse := h.parse h'
  have hread : (read source).erase = (read source').erase := by rw [read_erase, read_erase, hparse]
  have htable : (read source).erase.table? = (read source').erase.table? := by rw [hread]
  have hproblems : (read source).erase.findings.map Finding.problem =
      (read source').erase.findings.map Finding.problem := by rw [hread]
  refine ⟨h.tokens .origin, hparse, htable, ?_, compile_alike hread filename⟩
  simpa [Reading.erase, Finding.erase, Function.comp_def] using hproblems

theorem formatting_is_irrelevant_const : ∃ words source source', source ≠ source' ∧
    Written words source.toList ∧ Written words source'.toList ∧
      eraseParse (parse source) = eraseParse (parse source') ∧ (read source).table? = (read source').table? ∧
      (compile source "").map Compilation.erase = (compile source' "").map Compilation.erase := by
  have spelled : ∀ {text : String} {k : Terminal},
      ((Lexeme.next? text.toList).any fun l => l.terminal? == some k && l.text == text.toList) = true →
        Spells (some k) text.toList := by
    intro text k h
    obtain ⟨l, hl, h⟩ := (Option.any_eq_true _ _).1 h
    rw [Bool.and_eq_true, beq_iff_eq, beq_iff_eq] at h
    exact h.1 ▸ h.2 ▸ Lexeme.spells_next? hl
  let words : List Word := [(.const, "const"), (.name, "N"), (.equal, "="), (.integer, "4"), (.semicolon, ";")]
  have written : ∀ gap, Separator gap → Written words (String.ofList (gap ++ ("const".toList ++ (gap ++ ("N".toList ++
      (gap ++ ("=".toList ++ (gap ++ ("4".toList ++ (gap ++ (";".toList ++ gap)))))))))) ).toList := by
    intro gap hg
    rw [String.toList_ofList]
    exact .cons hg (spelled (by decide +kernel)) (.cons hg (spelled (by decide +kernel))
      (.cons hg (spelled (by decide +kernel)) (.cons hg (spelled (by decide +kernel))
        (.cons hg (spelled (by decide +kernel)) (.nil hg)))))
  have hspace : Separator [' '] := ⟨.blank (by decide) .nil, by simp⟩
  have hcomment : Separator ['/', '/', 'é', '\n'] := ⟨.comment (t := ['é']) (by simp) .nil, by simp⟩
  obtain ⟨-, hparse, htable, -, hcompile⟩ := formatting_is_irrelevant (written _ hspace) (written _ hcomment) ""
  exact ⟨words, _, _, by decide +kernel, written _ hspace, written _ hcomment, hparse, htable, hcompile⟩

end Compilation

end ShaderLayout
