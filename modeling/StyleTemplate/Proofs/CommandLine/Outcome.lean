/-
  **How a run of the command line ends.**

  A run that does not get all that it works on, or whose substitution fails, writes an
  error and no part of a result.  One that succeeds writes the whole result and nothing
  else.  In front of an error of the substitution, and beside a result, stand the
  records of the tokens that failed until then (`Ends`, `ends_run`).
-/
import StyleTemplate.Proofs.CommandLine.Loading
import StyleTemplate.Proofs.Substitution.Endings
import StyleTemplate.Proofs.Substitution.ErrorLocation

namespace StyleTemplate

/-! ### Texts in normal form -/

section NormalForm

variable {σ τ : Type} (p : Processor σ τ)

theorem pass_normalize (sources : List Source) (collapse : Bool) (text : List Char)
    (state : RunState σ τ) :
    p.pass sources collapse (normalize text) state = p.pass sources collapse text state := by
  simp only [Processor.pass, normalize_idem]

theorem run_normalize (chained : Bool) (sources : List Source) (text : List Char)
    (state : RunState σ τ) :
    p.run chained sources (normalize text) state = p.run chained sources text state := by
  cases chained with
  | false => exact pass_normalize p sources true text state
  | true =>
    cases sources with
    | nil => exact pass_normalize p [] true text state
    | cons source more =>
      cases more with
      | nil => exact pass_normalize p [source] true text state
      | cons next more =>
        simp only [Processor.run, if_pos, Processor.substituteEach, pass_normalize]

end NormalForm

namespace CommandLine

/-! ### Records of failures -/

/-- The record of a failure. -/
def failureText (label : String) (failure : Token × ResolveError) : String :=
  s!"sheetsub error: {label}\n{failure.2.message}\n" ++
    s!"sheetsub token: '{failure.1.raw}' (path {failure.1.name}, position {failure.1.start.unit16})\n"

/-- The records of failures, if they are asked for. -/
def failuresText (options : Options) (failed : List (Token × ResolveError)) : String :=
  if options.printErrors then String.join (failed.map (failureText options.filename)) else ""

theorem failureText_eq (label : String) :
    failureText label = fun failure => (failureDiagnostic label failure).errorText ++
      (failureDiagnostic label failure).tokenText :=
  rfl

theorem reportAll_stream (diagnostics : List Diagnostic) (written : String) :
    Sink.stream.reportAll diagnostics { written } =
      { written := written ++
          String.join (diagnostics.map fun d => d.errorText ++ d.tokenText) } := by
  induction diagnostics generalizing written with
  | nil => simp [Sink.reportAll]
  | cons d diagnostics ih =>
    have hreport : Sink.stream.report d { written } =
        { written := written ++ d.errorText ++ d.tokenText } := rfl
    rw [Sink.reportAll, List.foldl_cons, hreport, ← Sink.reportAll, ih, List.map_cons,
      String.join_cons]
    simp only [String.append_assoc]

/-- **A run writes the records of what fails in its passes.** -/
theorem exists_written (options : Options) (chained : Bool) (sources : List Source)
    (text : List Char) :
    ∃ failed,
      Endings (processor options) ((processor options).passes chained sources text ()) failed ∧
      ((processor options).run chained sources text start).2.reported.written =
        failuresText options failed := by
  obtain ⟨failed, hendings, hreported⟩ :=
    (processor options).exists_endings_run chained sources text () {}
  refine ⟨failed, hendings, ?_⟩
  have hstart : start = ⟨(), {}⟩ := rfl
  have hsink : (processor options).sink = Sink.stream := rfl
  have hoptions : (processor options).options = options := rfl
  rw [hstart, hreported, hsink, reportAll_stream, Processor.diagnosticsOf, hoptions, failuresText]
  split
  · rw [List.map_map, failureText_eq]
    exact String.empty_append
  · rfl

/-! ### Ends -/

/-- `Ends wording i read stdin outcome`: so a run may end.  It is not loaded, the
    substitution fails at a text that cannot be scanned or at a token that cannot be
    written, or it succeeds.  Of a text that cannot be scanned it writes what the drawing
    makes of the error, which has the message in it. -/
inductive Ends (wording : Wording) (i : Invocation) (read : FileReader) (stdin : ByteArray) :
    Outcome → Prop where
  | unloaded {message : String} : i.FailsToLoad wording read stdin message →
      Ends wording i read stdin { exit := 1, stderr := message }
  | malformed {options : Options} {sources : List Source} {text : List Char}
      {failed : List (Token × ResolveError)} {error : SyntaxError} {extent : Extent}
      {shown : String} :
      i.Ready read stdin options sources text →
      Endings (processor options) ((processor options).passes i.chained sources text ()) failed →
      ((processor options).run i.chained sources text start).1 = .error (.malformed error) →
      error.extent? = some extent →
      shown = (wording.draw
        ⟨options.filename, extent.start, error.message, extent.start, extent.stop, error.message⟩
        (normalize text)).getD error.message →
      (wording.draw.Shows → error.message.toList <:+: shown.toList) →
      Ends wording i read stdin { exit := 1, stderr := failuresText options failed ++ shown }
  | unresolved {options : Options} {sources : List Source} {text : List Char}
      {failed : List (Token × ResolveError)} {raw : String} {cause : ResolveError} :
      i.Ready read stdin options sources text →
      Endings (processor options) ((processor options).passes i.chained sources text ()) failed →
      ((processor options).run i.chained sources text start).1 = .error (.unresolved raw cause) →
      Ends wording i read stdin
        { exit := 1
          stderr := failuresText options failed ++
            ("Error: " ++ s!"failed to resolve '{raw}': {cause.message}" ++ "\n") }
  | finished {options : Options} {sources : List Source} {text output : List Char}
      {failed : List (Token × ResolveError)} :
      i.Ready read stdin options sources text →
      Endings (processor options) ((processor options).passes i.chained sources text ()) failed →
      ((processor options).run i.chained sources text start).1 = .ok output →
      Ends wording i read stdin
        { exit := 0, stdout := String.ofList output, stderr := failuresText options failed }

section Process

variable {wording : Wording} {i : Invocation} {options : Options} {sources : List Source}
  {text : List Char}

theorem process_of_ok {output : List Char}
    (h : ((processor options).run i.chained sources text start).1 = .ok output) :
    process wording i options sources text =
      { exit := 0, stdout := String.ofList output
        stderr := ((processor options).run i.chained sources text start).2.reported.written } := by
  rw [← run_normalize] at h ⊢
  rw [Processor.run, processor, start] at h
  simp only [process, h, Processor.run, processor, start]

theorem process_of_error {error : SubstituteError}
    (h : ((processor options).run i.chained sources text start).1 = .error error) :
    process wording i options sources text =
      { exit := 1
        stderr := ((processor options).run i.chained sources text start).2.reported.written ++
          errorText wording.draw i.label (normalize text) error } := by
  rw [← run_normalize] at h ⊢
  rw [Processor.run, processor, start] at h
  simp only [process, h, Processor.run, processor, start]

/-- The error of a run that cannot scan a text is about a stretch of it. -/
theorem exists_extent_of_run {error : SyntaxError}
    (h : ((processor options).run i.chained sources text start).1 = .error (.malformed error)) :
    ∃ extent, error.extent? = some extent ∧ extent.start ≤ extent.stop := by
  obtain ⟨_, _, _, hscan, _⟩ := exists_scanAll_of_run (Prod.ext h rfl :
    (processor options).run i.chained sources text start = (.error (.malformed error), _))
  obtain ⟨hextent, _⟩ := locatedIn_of_scanAll hscan
  exact ⟨_, hextent, (scanFrom_eq_error_iff.1 hscan).start_le_stop _ hextent⟩

end Process

section Run

variable {wording : Wording} {i : Invocation} {read : FileReader} {stdin : ByteArray}
  {options : Options} {sources : List Source} {text : List Char}

theorem run_of_ready (h : i.Ready read stdin options sources text) :
    run wording i read stdin = process wording i options sources text := by
  rw [run, Invocation.load_eq_ok_iff.2 h]

theorem ends_of_ready (h : i.Ready read stdin options sources text) :
    Ends wording i read stdin (run wording i read stdin) := by
  obtain ⟨failed, hendings, hwritten⟩ := exists_written options i.chained sources text
  have hlabel : i.label = options.filename := h.options.label_eq
  rw [run_of_ready h]
  cases hrun : ((processor options).run i.chained sources text start).1 with
  | ok output =>
    rw [process_of_ok hrun, hwritten]
    exact .finished h hendings hrun
  | error error =>
    rw [process_of_error hrun, hwritten, hlabel]
    cases error with
    | malformed error =>
      obtain ⟨extent, hextent, hle⟩ := exists_extent_of_run hrun
      exact .malformed h hendings hrun hextent (SyntaxError.format_eq hextent _ _ _)
        fun hdraw => SyntaxError.message_infix_format hdraw hextent hle _ _
    | unresolved raw cause => exact .unresolved h hendings hrun

end Run

/-- **A run ends with all of the result or with none of it.**  It succeeds just if
    everything that it works on is there and the substitution succeeds. -/
theorem ends_run (wording : Wording) (i : Invocation) (read : FileReader) (stdin : ByteArray) :
    Ends wording i read stdin (run wording i read stdin) ∧
      ((run wording i read stdin).exit = 0 ↔ ∃ options sources text output,
        i.Ready read stdin options sources text ∧
          ((processor options).run i.chained sources text start).1 = .ok output) ∧
      ((run wording i read stdin).exit = 0 ∨
        (run wording i read stdin).exit = 1 ∧ (run wording i read stdin).stdout = "") := by
  have hends : Ends wording i read stdin (run wording i read stdin) := by
    cases hload : i.load read stdin with
    | error error =>
      rw [run, hload]
      exact .unloaded (Invocation.failsToLoad_of_load hload)
    | ok loaded => exact ends_of_ready (Invocation.load_eq_ok_iff.1 hload)
  refine ⟨hends, ?_, ?_⟩
  · constructor
    · intro hexit
      generalize run wording i read stdin = outcome at hends hexit
      cases hends with
      | unloaded => nomatch hexit
      | malformed => nomatch hexit
      | unresolved => nomatch hexit
      | finished hready _ hrun => exact ⟨_, _, _, _, hready, hrun⟩
    · rintro ⟨options, sources, text, output, hready, hrun⟩
      rw [run_of_ready hready, process_of_ok hrun]
  · generalize run wording i read stdin = outcome at hends ⊢
    cases hends with
    | unloaded => exact .inr ⟨rfl, rfl⟩
    | malformed => exact .inr ⟨rfl, rfl⟩
    | unresolved => exact .inr ⟨rfl, rfl⟩
    | finished => exact .inl rfl

/-- A configuration that is not there, beside a source that is no TOML; and a chain whose
    second pass fails behind the record of its first. -/
theorem ends_run_first_fault :
    let read : FileReader := fun path =>
      if path = "a.toml" then .ok "m = {k = {}}\na = \"x$\"".toUTF8
      else if path = "b.toml" then .ok "".toUTF8
      else if path = "x.toml" then .ok "=".toUTF8
      else .error .notFound
    let unloaded : Invocation := { config? := some "c.toml", sources := ["x.toml"] }
    let chained : Invocation := { sources := ["a.toml", "b.toml"], chained := true }
    let stdin := "$m $a;".toUTF8
    let missing : Outcome := {
      exit := 1
      stderr := "Error loading config 'c.toml': No such file or directory (os error 2)\n" }
    let broken : Outcome := {
      exit := 1
      stderr := "sheetsub error: <stdin>\n" ++
        "the CSS property 'k' does not have a valid type (mapping)\n" ++
        "sheetsub token: '$m ' (path m, position 0)\n" ++
        "Error: empty token name after '$' at 4\n<stdin>:1:5\n" }
    Ends .plain unloaded read stdin missing ∧ Ends .plain chained read stdin broken ∧
      ¬ ∃ options sources text output, chained.Ready read stdin options sources text ∧
        ((processor options).run true sources text start).1 = .ok output := by
  intro read unloaded chained stdin missing broken
  have hunloaded : run .plain unloaded read stdin = missing := by decide +kernel
  have hchained : run .plain chained read stdin = broken := by decide +kernel
  obtain ⟨hends, -, -⟩ := ends_run .plain unloaded read stdin
  obtain ⟨hends', hexit, -⟩ := ends_run .plain chained read stdin
  rw [hunloaded] at hends
  rw [hchained] at hends' hexit
  exact ⟨hends, hends', fun hstarts => absurd (hexit.2 hstarts) (by decide)⟩

end CommandLine

end StyleTemplate
