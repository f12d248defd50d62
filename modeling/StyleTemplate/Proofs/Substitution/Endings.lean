/-
  **How a pass ends, and what has failed by then.**

  A pass that cannot scan its text has tried no token.  One that goes on behind errors
  has tried them all, and one that stops at errors all of them down to the first that
  fails.  A pass ends in one of these ways (`Ending`), and reports, if it is to report at
  all, just what has failed until then (`exists_ending`).  So the tokens that fail in a
  run are settled by its passes, one after another (`Endings`).
-/
import StyleTemplate.Proofs.Substitution.ErrorPolicy
import StyleTemplate.Proofs.Substitution.Reporting

namespace StyleTemplate

variable {σ τ : Type}

/-! ### Failing tokens -/

theorem Failures.append {host : Host σ} {sources : List Source} {tokens more : List Token}
    {failed others : List (Token × ResolveError)} {functions between functions' : σ}
    (h : Failures host sources tokens functions failed between)
    (hmore : Failures host sources more between others functions') :
    Failures host sources (tokens ++ more) functions (failed ++ others) functions' := by
  induction h with
  | nil => exact hmore
  | escape hescape _ ih => exact .escape hescape (ih hmore)
  | notFound hname hlookup _ ih => exact .notFound hname hlookup (ih hmore)
  | resolved hname hlookup hresolve _ ih => exact .resolved hname hlookup hresolve (ih hmore)
  | failed hname hlookup hresolve _ ih => exact .failed hname hlookup hresolve (ih hmore)

/-- `Ending p pass result failed`: the pass ends with the result, and until then the
    tokens in `failed` could not be written, each for the error beside it. -/
inductive Ending (p : Processor σ τ) (pass : Pass σ) :
    Except SubstituteError (List Char) → List (Token × ResolveError) → Prop where
  | malformed {error : SyntaxError} :
      scanAll p.options.marker (normalize pass.text) = .error error →
      Ending p pass (.error (.malformed error)) []
  | finished {tokens : List Token} {out : List Char} {failed : List (Token × ResolveError)}
      {functions : σ} :
      scanAll p.options.marker (normalize pass.text) = .ok tokens →
      Failures p.host pass.sources tokens.reverse pass.functions failed functions →
      p.options.onError = .report ∨ failed = [] → Ending p pass (.ok out) failed
  | stopped {left right : List Token} {token : Token} {error : ResolveError} {functions : σ} :
      scanAll p.options.marker (normalize pass.text) = .ok (left ++ token :: right) →
      Failures p.host pass.sources (token :: right).reverse pass.functions [(token, error)]
        functions →
      p.options.onError = .abort →
      Ending p pass (.error (.unresolved token.raw error)) [(token, error)]

/-! ### How a pass ends -/

section Pass

variable {p : Processor σ τ}

/-- Going on behind errors, a pass tries every token. -/
theorem exists_ending_of_report (hpolicy : p.options.onError = .report)
    (hprint : p.options.printErrors = true) (pass : Pass σ) :
    ∃ failed, Ending p pass (p.perform pass).1 failed ∧
      p.reports pass = failed.map (failureDiagnostic p.options.filename) := by
  rw [Processor.reports]
  cases hscan : scanAll p.options.marker (normalize pass.text) with
  | error error =>
    have hrun : p.perform pass = (.error (.malformed error), ⟨pass.functions, []⟩) :=
      pass_of_error (p := p.remembering) hscan _
    rw [hrun]
    exact ⟨[], .malformed hscan, rfl⟩
  | ok tokens =>
    obtain ⟨out, failed, functions, hfailed, hreplace⟩ := exists_failures_of_replaceAll hpolicy
      hprint pass.sources pass.collapse tokens.reverse (normalize pass.text) pass.functions []
    have hrun : p.perform pass =
        (.ok out, ⟨functions, failed.map (failureDiagnostic p.options.filename)⟩) :=
      (pass_of_ok (p := p.remembering) hscan _).trans hreplace
    rw [hrun]
    exact ⟨failed, .finished hscan hfailed (.inl hpolicy), rfl⟩

theorem remembering_eq_collecting (hprint : p.options.printErrors = true) :
    p.remembering = .collecting p.host p.options p.options.onError := by
  rw [Processor.remembering, Processor.collecting, ← hprint]

/-- Replacing tokens without a diagnostic, none of them has failed. -/
theorem failures_of_silent {host : Host σ} {options : Options} {sources : List Source}
    {collapse : Bool} {tokens : List Token} {text out : List Char} {functions functions' : σ}
    (h : (Processor.collecting host options .report).replaceAll sources collapse tokens text
      ⟨functions, []⟩ = (.ok out, ⟨functions', []⟩)) :
    Failures host sources tokens functions [] functions' := by
  obtain ⟨out', failed, functions'', hfailed, hreplace⟩ :=
    exists_failures_of_replaceAll (p := .collecting host options .report) rfl rfl sources collapse
      tokens text functions []
  have hsame := congrArg Prod.snd (h.symm.trans hreplace)
  obtain ⟨rfl, hnone⟩ := RunState.mk.inj hsame
  obtain rfl : failed = [] := by simpa using hnone.symm
  exact hfailed

/-- Stopping at errors, a pass tries the tokens down to the first that fails. -/
theorem exists_ending_of_abort (hpolicy : p.options.onError = .abort)
    (hprint : p.options.printErrors = true) (pass : Pass σ) :
    ∃ failed, Ending p pass (p.perform pass).1 failed ∧
      p.reports pass = failed.map (failureDiagnostic p.options.filename) := by
  have hperform : p.perform pass = (Processor.collecting p.host p.options .abort).pass
      pass.sources pass.collapse pass.text ⟨pass.functions, []⟩ := by
    rw [Processor.perform, remembering_eq_collecting hprint, hpolicy]
  rw [Processor.reports, hperform]
  rcases @pass_cases _ p.host p.options pass.sources pass.collapse pass.text
    ⟨pass.functions, []⟩ with
    ⟨result, functions, hrun⟩ |
      ⟨left, token, right, buffer, functions, error, functions', hscan, hright, herror, habort, -⟩
  · -- nothing fails
    rw [hrun .abort]
    refine ⟨[], ?_, rfl⟩
    have hreport := hrun .report
    cases hscan : scanAll p.options.marker (normalize pass.text) with
    | error error =>
      rw [pass_of_error (p := .collecting p.host p.options .report) hscan] at hreport
      obtain ⟨rfl, -⟩ := Prod.mk.inj hreport
      exact .malformed hscan
    | ok tokens =>
      rw [pass_of_ok (p := .collecting p.host p.options .report) hscan] at hreport
      obtain ⟨out, state, hreplace⟩ := @exists_replaceAll_eq_ok _ _
        (.collecting p.host p.options .report) pass.sources pass.collapse rfl tokens.reverse
        (normalize pass.text) ⟨pass.functions, []⟩
      obtain ⟨rfl, rfl⟩ := Prod.mk.inj (hreport.symm.trans hreplace)
      exact .finished hscan (failures_of_silent hreplace) (.inr rfl)
  · -- the rightmost token that fails
    have hwritten := written_replacement? (.collecting p.host p.options .abort) pass.sources token
      functions
    rw [herror] at hwritten
    rw [habort]
    cases hwritten with
    | failed hname hlookup hresolve =>
      have hfailed : Failures p.host pass.sources (token :: right).reverse pass.functions
          [(token, error)] functions' := by
        rw [List.reverse_cons]
        exact (failures_of_silent (hright .report)).append (.failed hname hlookup hresolve .nil)
      exact ⟨[(token, error)], .stopped hscan hfailed hpolicy, rfl⟩

end Pass

namespace Processor

/-- The diagnostics that a processor makes of failures. -/
def diagnosticsOf (p : Processor σ τ) (failed : List (Token × ResolveError)) : List Diagnostic :=
  if p.options.printErrors then failed.map (failureDiagnostic p.options.filename) else []

theorem diagnosticsOf_append (p : Processor σ τ) (failed others : List (Token × ResolveError)) :
    p.diagnosticsOf (failed ++ others) = p.diagnosticsOf failed ++ p.diagnosticsOf others := by
  rw [diagnosticsOf, diagnosticsOf, diagnosticsOf]
  split
  · exact List.map_append
  · rfl

/-- The processor with failures reported otherwise. -/
def reporting (p : Processor σ τ) (filename : String) (printErrors : Bool) : Processor σ τ :=
  { p with options := { p.options with filename, printErrors } }

theorem ending_of_reporting {p : Processor σ τ} {filename : String} {printErrors : Bool}
    {pass : Pass σ} {result : Except SubstituteError (List Char)}
    {failed : List (Token × ResolveError)}
    (h : Ending (p.reporting filename printErrors) pass result failed) :
    Ending p pass result failed := by
  cases h with
  | malformed hscan => exact .malformed hscan
  | finished hscan hfailed hpolicy => exact .finished hscan hfailed hpolicy
  | stopped hscan hfailed hpolicy => exact .stopped hscan hfailed hpolicy

/-- A pass has the same result whatever becomes of failures. -/
theorem perform_reporting (p : Processor σ τ) (filename : String) (printErrors : Bool)
    (pass : Pass σ) :
    ((p.reporting filename printErrors).perform pass).1 = (p.perform pass).1 := by
  have hstep := p.remembering.inStep_reporting filename printErrors .memory
  exact (hstep.pass pass.sources pass.collapse pass.text ⟨rfl, trivial⟩).result

/-- Another label is all that is different about the diagnostics under another label. -/
theorem reports_relabelled (p : Processor σ τ) (filename : String) (pass : Pass σ) :
    (p.reporting filename p.options.printErrors).reports pass =
      (p.reports pass).map fun d => { d with filename } := by
  have hstep : InStep (p.reporting filename p.options.printErrors).remembering p.remembering
      (ToldAlike fun told kept => told = kept.map fun d => { d with filename }) := by
    refine inStep_of_host_eq ?_ ?_ ?_ ?_
    · rfl
    · rfl
    · rfl
    · rintro token error _ kept rfl
      have hprint : (p.reporting filename p.options.printErrors).options.printErrors =
          p.options.printErrors := rfl
      rw [reportError, reportError, remembering_options, remembering_options, hprint]
      split
      · simp [remembering, reporting, Sink.memory, Diagnostic.ofToken]
      · rfl
  exact (hstep.pass pass.sources pass.collapse pass.text ⟨rfl, rfl⟩).state.reported

/-- **A pass reports what has failed until its end.** -/
theorem exists_ending (p : Processor σ τ) (pass : Pass σ) :
    ∃ failed, Ending p pass (p.perform pass).1 failed ∧
      ∀ filename printErrors, (p.reporting filename printErrors).reports pass =
        (p.reporting filename printErrors).diagnosticsOf failed := by
  have hspoken : ∃ failed, Ending (p.reporting p.options.filename true) pass
        ((p.reporting p.options.filename true).perform pass).1 failed ∧
      (p.reporting p.options.filename true).reports pass =
        failed.map (failureDiagnostic p.options.filename) := by
    cases hpolicy : p.options.onError with
    | report => exact exists_ending_of_report (p := p.reporting _ true) hpolicy rfl pass
    | abort => exact exists_ending_of_abort (p := p.reporting _ true) hpolicy rfl pass
  obtain ⟨failed, hending, hreports⟩ := hspoken
  refine ⟨failed, ?_, ?_⟩
  · rw [perform_reporting] at hending
    exact ending_of_reporting hending
  · intro filename printErrors
    cases printErrors with
    | false => exact reports_of_silent (p := p.reporting filename false) rfl pass
    | true =>
      have hrelabel := reports_relabelled (p.reporting p.options.filename true) filename pass
      rw [hreports, List.map_map] at hrelabel
      exact hrelabel

end Processor

/-! ### The passes of a run -/

/-- What has failed by the ends of some passes. -/
inductive Endings (p : Processor σ τ) : List (Pass σ) → List (Token × ResolveError) → Prop where
  | nil : Endings p [] []
  | cons {pass : Pass σ} {passes : List (Pass σ)} {failed others : List (Token × ResolveError)} :
      Ending p pass (p.perform pass).1 failed → Endings p passes others →
      Endings p (pass :: passes) (failed ++ others)

namespace Processor

theorem exists_endings (p : Processor σ τ) (passes : List (Pass σ)) :
    ∃ failed, Endings p passes failed ∧ passes.flatMap p.reports = p.diagnosticsOf failed := by
  induction passes with
  | nil =>
    refine ⟨[], .nil, ?_⟩
    rw [diagnosticsOf, List.map_nil, ite_self, List.flatMap_nil]
  | cons pass passes ih =>
    obtain ⟨failed, hending, hreports⟩ := p.exists_ending pass
    obtain ⟨others, hendings, hothers⟩ := ih
    have hown : p.reports pass = p.diagnosticsOf failed :=
      hreports p.options.filename p.options.printErrors
    refine ⟨failed ++ others, .cons hending hendings, ?_⟩
    rw [List.flatMap_cons, hown, hothers, diagnosticsOf_append]

/-- **A run reports what fails in its passes, in their order.** -/
theorem exists_endings_run (p : Processor σ τ) (chained : Bool) (sources : List Source)
    (text : List Char) (functions : σ) (reported : τ) :
    ∃ failed, Endings p (p.passes chained sources text functions) failed ∧
      (p.run chained sources text ⟨functions, reported⟩).2.reported =
        p.sink.reportAll (p.diagnosticsOf failed) reported := by
  obtain ⟨failed, hendings, hreports⟩ :=
    p.exists_endings (p.passes chained sources text functions)
  obtain ⟨_, _, _, hrun⟩ := p.exists_passes_eq chained sources text functions reported
  refine ⟨failed, hendings, ?_⟩
  rw [hrun, hreports]

end Processor

end StyleTemplate
