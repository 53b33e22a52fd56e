import ShaderLayout.Command.Run
import ShaderLayout.Proofs.Layout.Renewing
import ShaderLayout.Proofs.Writing

namespace ShaderLayout.Command

open Description

section Flags

def Options.Alike (o o' : Options) : Prop := ∀ f, f ≠ .fatal → f ≠ .traceback → o.has f = o'.has f

structure Outcome.Agrees (a b : Outcome) : Prop where
  stdout : a.stdout = b.stdout
  ending : a.ending = b.ending

lemma Outcome.Agrees.refl (a : Outcome) : a.Agrees a := ⟨rfl, rfl⟩

variable (w : World) {o o' : Options} (path dump source : String) (table : Description.Table) (report : Report)

lemma layOut_ok (o : Options) {t : Layouts} (ht : Layout.table table.types table.constants = .ok t) :
    layOut w o path dump table report = list w o path dump table t report := by
  rw [layOut, Layout.tryTable, ht]
  cases o.has .fatal <;> rfl

lemma layOut_error (o : Options) {e : LayoutError}
    (ht : Layout.table table.types table.constants = .error (.layout e)) :
    ∃ stderr, layOut w o path dump table report = .exit errorCode dump stderr := by
  rw [layOut, Layout.tryTable, ht]
  cases o.has .fatal with
  | true => exact ⟨_, rfl⟩
  | false => exact ⟨_, rfl⟩

lemma layOut_numeralTooLong (o : Options) (ht : Layout.table table.types table.constants = .error .numeralTooLong) :
    layOut w o path dump table report = .fail .numeralTooLong dump := by
  rw [layOut, Layout.tryTable, ht]
  cases o.has .fatal <;> rfl

variable (h : o.Alike o')

include h

lemma Options.Alike.has (f : Flag) (hf : f ≠ .fatal := by decide) (ht : f ≠ .traceback := by decide) :
    o.has f = o'.has f :=
  h f hf ht

lemma layOut_agrees : (layOut w o path dump table report).Agrees (layOut w o' path dump table report) := by
  cases ht : Layout.table table.types table.constants with
  | ok t =>
    rw [layOut_ok w path dump table report o ht, layOut_ok w path dump table report o' ht, list, list, h.has .llvm,
      h.has .json, h.has .members]
    exact .refl _
  | error f =>
    obtain ⟨k, t, e, -, rfl⟩ | ⟨rfl, -⟩ := Layout.table_error_cases ht
    · obtain ⟨stderr, hl⟩ := layOut_error w path dump table report o ht
      obtain ⟨stderr', hl'⟩ := layOut_error w path dump table report o' ht
      rw [hl, hl']
      exact ⟨rfl, rfl⟩
    · rw [layOut_numeralTooLong w path dump table report o ht, layOut_numeralTooLong w path dump table report o' ht]
      exact .refl _

lemma process_agrees : (process w o path source).Agrees (process w o' path source) := by
  rw [process, process, h.has .dumpParse]
  cases (read source).accepted? with
  | none => exact .refl _
  | some table => exact layOut_agrees w path _ table _ h

lemma processFile_agrees : (processFile w o path).Agrees (processFile w o' path) := by
  rw [processFile, processFile]
  split
  · exact .refl _
  · split
    · exact .refl _
    · split
      · exact .refl _
      · exact process_agrees w path _ h

omit path dump source table report

lemma run_agrees {arguments arguments' : List String} (ho : Request.ofArguments arguments = .run o)
    (ho' : Request.ofArguments arguments' = .run o') (hs : o.source = o'.source) :
    (run w arguments).Agrees (run w arguments') := by
  rw [run, run, ho, ho']
  simp only [h.has .version, hs]
  split
  · exact .refl _
  · split
    · exact .refl _
    · split
      · exact .refl _
      · exact processFile_agrees w _ h

end Flags

section Arguments

def Request.withFlag (f : Flag) : Request → Request
  | .run o => .run { o with flags := f :: o.flags }
  | r => r

namespace Gathered

def withFlag (g : Gathered) (f : Flag) : Gathered := { g with flags := f :: g.flags }

variable (g : Gathered) (f : Flag)

lemma addPlain_withFlag (s : String) : (g.withFlag f).addPlain s = (g.addPlain s).withFlag f := by
  cases ht : g.taken <;> simp [addPlain, withFlag, ht]

lemma addRest_withFlag (rest : List String) : (g.withFlag f).addRest rest = (g.addRest rest).withFlag f := by
  cases ht : g.taken <;> simp [addRest, withFlag, ht]

lemma foldl_addFlag_withFlag (fs : List Flag) :
    fs.foldl addFlag (g.withFlag f) = (fs.foldl addFlag g).withFlag f := by
  induction fs generalizing g with
  | nil => rfl
  | cons f' fs ih => exact ih (g.addFlag f')

end Gathered

namespace Request

lemma finish_withFlag (g : Gathered) (f : Flag) : finish (g.withFlag f) = (finish g).withFlag f := by
  by_cases he : g.extras = [] <;> simp [finish, Gathered.withFlag, withFlag, he]

lemma gather_withFlag (g : Gathered) (f : Flag) (words : List (String × Word)) (rest : List String) :
    gather (g.withFlag f) words rest = (gather g words rest).withFlag f := by
  induction words generalizing g with
  | nil =>
    rw [gather, gather, ← finish_withFlag]
    split
    · rfl
    · rw [Gathered.addRest_withFlag]
  | cons sw words ih =>
    obtain ⟨s, word⟩ := sw
    cases word with
    | plain => rw [gather, gather, Gathered.addPlain_withFlag, ih]
    | unknown => exact ih (g.addUnknown s)
    | option name flag value =>
      simp only [gather]
      split
      · rfl
      · split
        · rfl
        · rw [Gathered.foldl_addFlag_withFlag, ih]

lemma ofArguments_fatal (arguments : List String) :
    ofArguments ("--fatal" :: arguments) = (ofArguments arguments).withFlag .fatal := by
  have hclassify : Word.classify "--fatal" = .ok (.option "--fatal" .fatal none) := by decide +kernel
  have htake : ("--fatal" :: arguments).takeWhile (· ≠ "--") = "--fatal" :: arguments.takeWhile (· ≠ "--") := by
    simp
  have hdrop : ("--fatal" :: arguments).dropWhile (· ≠ "--") = arguments.dropWhile (· ≠ "--") := by
    simp
  simp only [ofArguments, htake, hdrop, List.mapM_cons, hclassify]
  cases (arguments.takeWhile (· ≠ "--")).mapM fun s => (Word.classify s).map (s, ·) with
  | error r => rfl
  | ok words => exact gather_withFlag .initial .fatal words _

end Request

lemma run_fatal (w : World) (arguments : List String) :
    (run w ("--fatal" :: arguments)).Agrees (run w arguments) := by
  have hf := Request.ofArguments_fatal arguments
  cases hr : Request.ofArguments arguments with
  | run o =>
    rw [hr] at hf
    refine run_agrees w (fun f hf _ => ?_) hf hr rfl
    simp [Options.has, hf]
  | _ =>
    rw [hr] at hf
    rw [run, run, hr, hf]
    exact .refl _

end Arguments

section Endings

def LaysOut (source : String) : Prop :=
  ∃ table t, (read source).accepted? = some table ∧ Layout.table table.types table.constants = .ok t

def FailsToLayOut (source : String) (f : Failure) : Prop :=
  ∃ table, (read source).accepted? = some table ∧ Layout.table table.types table.constants = .error f

variable {source : String} {f g : Failure}

lemma FailsToLayOut.not_laysOut (h : FailsToLayOut source f) : ¬ LaysOut source := by
  rintro ⟨table, t, hr, ht⟩
  obtain ⟨table', hr', hf⟩ := h
  obtain rfl := Option.some.inj (hr.symm.trans hr')
  rw [ht] at hf
  cases hf

lemma FailsToLayOut.unique (h : FailsToLayOut source f) (h' : FailsToLayOut source g) : f = g := by
  obtain ⟨table, hr, hf⟩ := h
  obtain ⟨table', hr', hf'⟩ := h'
  obtain rfl := Option.some.inj (hr.symm.trans hr')
  rw [hf] at hf'
  cases hf'
  rfl

lemma list_exits (w : World) (o : Options) (path dump : String) (report : Report)
    {table : Description.Table} {t : Layouts} (hr : (read source).accepted? = some table)
    (ht : Layout.table table.types table.constants = .ok t) :
    ∃ listing, list w o path dump table t report =
      .exit (if report.hasWarnings then 1 else 0) (dump ++ listing) (printReport w report) := by
  obtain ⟨is, -, rfl, -⟩ := read_accepted hr
  have hw := build_wellFormed is
  have hp := Layout.table_prefix ht
  have hwritable := build_alignmentsWritable is
  obtain ⟨rs, hrs, -⟩ := Listing.rows_ok hw hp
  have hrows := Listing.rows_writable hw hp hwritable hrs
  obtain ⟨texts, htexts, -⟩ := Padded.describe_mapM hw hp hwritable (build is).table.types.handles
    (by simp [Arena.handles]) Padded.Sound.nil
  have hlowered : ∃ lowerings, (if o.has .llvm then
      ((Padded.describeAll (build is).table.types t).run.run []).1.map some else .ok none) = .ok lowerings := by
    rw [Padded.describeAll, htexts]
    split
    · exact ⟨_, rfl⟩
    · exact ⟨_, rfl⟩
  obtain ⟨lowerings, hlowered⟩ := hlowered
  simp only [list, hlowered, hrs]
  cases o.has .json with
  | true =>
    obtain ⟨text, htext⟩ := Listing.document_ok hrows path lowerings
    simp only [htext]
    exact ⟨_, rfl⟩
  | false =>
    obtain ⟨text, htext⟩ := Listing.written_ok (Listing.tableParts_ok hrows (o.has .members) lowerings)
    simp only [htext]
    exact ⟨_, rfl⟩

/-- How a source is dealt with; `dump` is what was written before. -/
inductive Ended (source dump : String) (report : Report) : Outcome → Prop
  | refused {stderr : String} (hr : (read source).accepted? = none) :
      Ended source dump report (.exit errorCode dump stderr)
  | failed {e : LayoutError} {stderr : String} (hf : FailsToLayOut source (.layout e)) :
      Ended source dump report (.exit errorCode dump stderr)
  | raised (hf : FailsToLayOut source .numeralTooLong) : Ended source dump report (.fail .numeralTooLong dump)
  | listed {listing stderr : String} (hl : LaysOut source) :
      Ended source dump report (.exit (if report.hasWarnings then 1 else 0) (dump ++ listing) stderr)

lemma process_ended (w : World) (o : Options) (path source : String) :
    Ended source (if o.has .dumpParse then dumpText source else "") ((read source).report (.empty (some source) path))
      (process w o path source) := by
  rw [process]
  cases hr : (read source).accepted? with
  | none => exact .refused hr
  | some table =>
    simp only
    cases ht : Layout.table table.types table.constants with
    | ok t =>
      obtain ⟨listing, hl⟩ := list_exits w o path (if o.has .dumpParse then dumpText source else "")
        ((read source).report (.empty (some source) path)) hr ht
      rw [layOut_ok _ _ _ _ _ o ht, hl]
      exact .listed ⟨table, t, hr, ht⟩
    | error f =>
      obtain ⟨k, t, e, -, rfl⟩ | ⟨rfl, -⟩ := Layout.table_error_cases ht
      · obtain ⟨stderr, hl⟩ := layOut_error w path (if o.has .dumpParse then dumpText source else "") table
          ((read source).report (.empty (some source) path)) o ht
        rw [hl]
        exact .failed ⟨table, hr, ht⟩
      · rw [layOut_numeralTooLong _ _ _ _ _ o ht]
        exact .raised ⟨table, hr, ht⟩

lemma accepted?_eq_none_iff (source : String) : (read source).accepted? = none ↔ (read source).hasErrors = true := by
  rw [Reading.accepted?]
  split
  · next h => exact iff_of_true rfl h
  · next h =>
    refine iff_of_false (fun hnone => h ?_) h
    rw [Description.read] at hnone ⊢
    split at hnone
    · rfl
    · cases hnone

lemma kind_of_mem_report {reading : Reading} {source : Option String} {path : String} {d : Diagnostic}
    (hd : d ∈ (reading.report (.empty source path)).items) : d.kind = .error ∨ d.kind = .warning := by
  obtain ⟨f, -, hkind, -⟩ := mem_report hd
  rw [hkind]
  cases f.problem.message.severity with
  | error => exact .inl rfl
  | warning => exact .inr rfl

lemma report_of_accepted {source path : String} {table : Description.Table}
    (hr : (read source).accepted? = some table) :
    let report := (read source).report (.empty (some source) path)
    report.hasErrors = false ∧ (∀ d ∈ report.items, d.kind = .warning) ∧
      (report.hasWarnings = true ↔ report.items ≠ []) := by
  intro report
  have herrors : report.hasErrors = false := by
    rw [report_hasErrors, ← Bool.not_eq_true, ← accepted?_eq_none_iff, hr]
    simp
  have hkinds : ∀ d ∈ report.items, d.kind = .warning := by
    intro d hd
    refine (kind_of_mem_report hd).resolve_left fun he => ?_
    have hnot := List.any_eq_false.1 herrors d hd
    exact hnot (decide_eq_true he)
  refine ⟨herrors, hkinds, ?_⟩
  rw [Report.hasWarnings, List.any_eq_true]
  constructor
  · rintro ⟨d, hd, -⟩
    exact List.ne_nil_of_mem hd
  · intro hne
    obtain ⟨d, hd⟩ := List.exists_mem_of_ne_nil _ hne
    exact ⟨d, hd, decide_eq_true (hkinds d hd)⟩

/-- The option `--fatal` changes neither the standard output nor the ending; the exit code tells what was reported, and
with an error nothing but the parse is written to the standard output. -/
theorem exit_codes_faithful (w : World) :
    (∀ arguments, (run w ("--fatal" :: arguments)).Agrees (run w arguments)) ∧
    (∀ arguments arguments' o o', Request.ofArguments arguments = .run o → Request.ofArguments arguments' = .run o' →
      o.source = o'.source → o.Alike o' → (run w arguments).Agrees (run w arguments')) ∧
    ∀ arguments o path bytes chars, Request.ofArguments arguments = .run o → o.has .version = false →
      o.source = some path → path ≠ "" → '\x00' ∉ path.toList →
      w.read (Path.resolve w.directory path) = .ok bytes → Text.Utf8.decode bytes = .ok chars →
      let source := String.ofList (Text.Line.unify chars)
      let report := (read source).report (.empty (some source) path)
      let outcome := run w arguments
      (outcome.ending = .ok 0 ↔ report.items = [] ∧ LaysOut source) ∧
      (outcome.ending = .ok 1 ↔ LaysOut source ∧ report.items ≠ [] ∧ ∀ d ∈ report.items, d.kind = .warning) ∧
      (outcome.ending = .ok 2 ↔ report.hasErrors = true ∨ ∃ e, FailsToLayOut source (.layout e)) ∧
      (∀ a, outcome.ending = .error a → a = .failure .numeralTooLong ∧ FailsToLayOut source .numeralTooLong) ∧
      (outcome.ending = .ok 2 → outcome.stdout = if o.has .dumpParse then dumpText source else "") := by
  refine ⟨run_fatal w, fun arguments arguments' o o' ho ho' hs h => run_agrees w h ho ho' hs, ?_⟩
  intro arguments o path bytes chars ho hversion hsource hpath hnull hread hdecode source report outcome
  have houtcome : outcome = process w o path source := by
    simp only [outcome, run, ho, hversion, hsource, processFile, hread, hdecode, if_neg hpath, if_neg hnull]
    rfl
  have hended : Ended source (if o.has .dumpParse then dumpText source else "") report outcome :=
    houtcome ▸ process_ended w o path source
  clear_value outcome
  cases hended with
  | refused hr =>
    have hlays : ¬ LaysOut source := by
      rintro ⟨table, t, hr', -⟩
      rw [hr] at hr'
      cases hr'
    have herrors : report.hasErrors = true :=
      (report_hasErrors ..).trans ((accepted?_eq_none_iff source).1 hr)
    simp [Outcome.exit, errorCode, hlays, herrors]
  | failed hf =>
    have hlays := hf.not_laysOut
    simp only [Outcome.exit, errorCode]
    simp [hlays, show ∃ e, FailsToLayOut source (.layout e) from ⟨_, hf⟩]
  | raised hf =>
    have hlays := hf.not_laysOut
    obtain ⟨table, hr, -⟩ := id hf
    have herrors : report.hasErrors = false := (report_of_accepted hr).1
    have hlayout : ∀ e, ¬ FailsToLayOut source (.layout e) := fun e he => by cases hf.unique he
    simp [Outcome.fail, hlays, hlayout, hf, herrors]
  | listed hl =>
    obtain ⟨table, t, hr, -⟩ := id hl
    obtain ⟨herrors, hkinds, hwarnings⟩ : report.hasErrors = false ∧ (∀ d ∈ report.items, d.kind = .warning) ∧
      (report.hasWarnings = true ↔ report.items ≠ []) := report_of_accepted hr
    have hfails : ∀ f, ¬ FailsToLayOut source f := fun f hf => hf.not_laysOut hl
    by_cases hempty : report.items = []
    · have hnone : report.hasWarnings = false := Bool.eq_false_iff.2 fun h => hwarnings.1 h hempty
      simp [Outcome.exit, hnone, hempty, hl, herrors, hfails]
    · have hsome : report.hasWarnings = true := hwarnings.2 hempty
      simp only [Outcome.exit, hsome, if_true]
      simpa [hempty, hl, herrors, hfails] using hkinds

theorem exit_codes_faithful_emptyStruct :
    let bytes := "type E = struct {};".toList.map fun c => UInt8.ofNat c.toNat
    let w : World := ⟨⟨false, false, false, false⟩, ⟨"", "", "", "", "", false⟩, [], fun _ => .ok bytes⟩
    (run w ["e", "--llvm"]).ending = .ok 1 ∧
      (run w ["--fatal", "e", "--llvm"]).stdout = (run w ["e", "--llvm"]).stdout := by
  intro bytes w
  obtain ⟨hfatal, -, hcodes⟩ := exit_codes_faithful w
  have ho : Request.ofArguments ["e", "--llvm"] = .run ⟨[.llvm], some "e"⟩ := by decide +kernel
  have hdecode : Text.Utf8.decode bytes = .ok "type E = struct {};".toList := by rfl
  have hunify : String.ofList (Text.Line.unify "type E = struct {};".toList) = "type E = struct {};" := by rfl
  have hone := (hcodes ["e", "--llvm"] _ "e" _ _ ho rfl rfl (by decide) (by decide) rfl hdecode).2.1
  rw [hunify] at hone
  refine ⟨hone.2 ⟨?_, ?_, ?_⟩, (hfatal ["e", "--llvm"]).stdout⟩
  · have hlaid : ((Description.read "type E = struct {};").accepted?.any fun table =>
        (Layout.table table.types table.constants).toOption.isSome) = true := by decide +kernel
    obtain ⟨table, hr, hsome⟩ := (Option.any_eq_true _ _).1 hlaid
    obtain ⟨t, ht⟩ := Option.isSome_iff_exists.1 hsome
    refine ⟨table, t, hr, ?_⟩
    cases hl : Layout.table table.types table.constants with
    | ok t' =>
      rw [hl] at ht
      cases ht
      rfl
    | error f =>
      rw [hl] at ht
      cases ht
  · decide +kernel
  · decide +kernel

end Endings

end ShaderLayout.Command
