/-
  **A run is a sequence of passes, and its sink hears of them afterwards.**

  Nothing comes back from a sink.  So a run can be told with a sink that only keeps
  what it is given, starting with nothing, and any other sink may be given all of that
  in the end (`replay_pass`).  What the passes of a run are is settled without the
  sink, too (`Processor.passes`): a run hands back what its last pass does, and
  reports what its passes report, in their order (`exists_passes_eq`).
-/
import StyleTemplate.Proofs.Substitution.Recording

namespace StyleTemplate

variable {σ τ : Type}

/-! ### Sinks that are told afterwards -/

/-- Hands diagnostics to a sink one after another. -/
def Sink.reportAll (sink : Sink τ) (diagnostics : List Diagnostic) (reported : τ) : τ :=
  diagnostics.foldl (fun reported d => sink.report d reported) reported

theorem Sink.reportAll_append (sink : Sink τ) (diagnostics more : List Diagnostic)
    (reported : τ) :
    sink.reportAll (diagnostics ++ more) reported =
      sink.reportAll more (sink.reportAll diagnostics reported) :=
  List.foldl_append

@[simp] theorem Sink.reportAll_memory (diagnostics kept : List Diagnostic) :
    Sink.memory.reportAll diagnostics kept = kept ++ diagnostics := by
  induction diagnostics generalizing kept with
  | nil => simp [Sink.reportAll]
  | cons d diagnostics ih =>
    rw [Sink.reportAll, List.foldl_cons, ← Sink.reportAll, ih]
    simp [Sink.memory]

namespace Processor

variable {sources : List Source} {collapse : Bool}

/-- The processor with a sink that keeps every diagnostic. -/
def remembering (p : Processor σ τ) : Processor σ (List Diagnostic) where
  options := p.options
  host := p.host
  sink := .memory

@[simp] theorem remembering_options (p : Processor σ τ) : p.remembering.options = p.options := rfl
@[simp] theorem remembering_sink (p : Processor σ τ) : p.remembering.sink = .memory := rfl

/-- What a run with diagnostics kept comes to once they have been handed to the sink. -/
def replay {α : Type} (p : Processor σ τ) (reported : τ)
    (run : α × RunState σ (List Diagnostic)) : α × RunState σ τ :=
  (run.1, ⟨run.2.functions, p.sink.reportAll run.2.reported reported⟩)

theorem reportError_reportAll (p : Processor σ τ) (token : Token) (error : ResolveError)
    (kept : List Diagnostic) (reported : τ) :
    p.reportError token error (p.sink.reportAll kept reported) =
      p.sink.reportAll (p.remembering.reportError token error kept) reported := by
  rw [reportError, reportError, remembering_options]
  split
  · rw [remembering_sink, Sink.memory, Sink.reportAll_append]
    rfl
  · rfl

/-- A sink keeps in step with one that only keeps what it is given. -/
theorem inStep_remembering (p : Processor σ τ) (reported : τ) :
    InStep p p.remembering (ToldAlike fun told kept => told = p.sink.reportAll kept reported) := by
  refine inStep_of_host_eq ?_ ?_ ?_ ?_
  · rfl
  · rfl
  · rfl
  · rintro token error _ kept rfl
    exact reportError_reportAll p token error kept reported

theorem replay_pass (p : Processor σ τ) (text : List Char) (state : RunState σ τ) :
    p.pass sources collapse text state =
      p.replay state.reported
        (p.remembering.pass sources collapse text ⟨state.functions, []⟩) := by
  have hnone : ToldAlike (fun told kept => told = p.sink.reportAll kept state.reported) state
      ⟨state.functions, []⟩ :=
    ⟨rfl, rfl⟩
  obtain ⟨hresult, hfunctions, hreported⟩ :=
    (p.inStep_remembering state.reported).pass sources collapse text hnone
  exact Prod.ext hresult (congrArg₂ RunState.mk hfunctions hreported)

end Processor

/-! ### The passes of a run -/

/-- A pass: what it works on, and the state that functions are in when it starts. -/
structure Pass (σ : Type) where
  sources : List Source
  collapse : Bool
  text : List Char
  functions : σ
deriving DecidableEq

namespace Processor

/-- What a pass does, and what it reports to an empty sink. -/
def perform (p : Processor σ τ) (pass : Pass σ) :
    Except SubstituteError (List Char) × RunState σ (List Diagnostic) :=
  p.remembering.pass pass.sources pass.collapse pass.text ⟨pass.functions, []⟩

def reports (p : Processor σ τ) (pass : Pass σ) : List Diagnostic :=
  (p.perform pass).2.reported

/-- The passes of a chain.  Each works on what the one before it hands back, and one
    that hands back an error is the last. -/
def chain (p : Processor σ τ) : List Source → List Char → σ → List (Pass σ)
  | [], text, functions => [⟨[], true, text, functions⟩]
  | [last], text, functions => [⟨[last], true, text, functions⟩]
  | source :: more, text, functions =>
    let first : Pass σ := ⟨[source], false, text, functions⟩
    match p.perform first with
    | (.ok text, state) => first :: p.chain more text state.functions
    | (.error _, _) => [first]

def passes (p : Processor σ τ) (chained : Bool) (sources : List Source) (text : List Char)
    (functions : σ) : List (Pass σ) :=
  if chained then p.chain sources text functions else [⟨sources, true, text, functions⟩]

/-- A run in one pass is that pass. -/
theorem pass_eq_perform (p : Processor σ τ) (pass : Pass σ) (reported : τ) :
    p.pass pass.sources pass.collapse pass.text ⟨pass.functions, reported⟩ =
      ((p.perform pass).1, ⟨(p.perform pass).2.functions,
        p.sink.reportAll (p.reports pass) reported⟩) :=
  replay_pass p pass.text ⟨pass.functions, reported⟩

theorem exists_chain_eq (p : Processor σ τ) (sources : List Source) (text : List Char)
    (functions : σ) (reported : τ) :
    ∃ front last, p.chain sources text functions = front ++ [last] ∧
      p.substituteEach sources text ⟨functions, reported⟩ =
        ((p.perform last).1, ⟨(p.perform last).2.functions,
          p.sink.reportAll ((p.chain sources text functions).flatMap p.reports) reported⟩) := by
  induction sources generalizing text functions reported with
  | nil =>
    refine ⟨[], ⟨[], true, text, functions⟩, rfl, ?_⟩
    rw [substituteEach, substitute, chain, List.flatMap_singleton]
    exact p.pass_eq_perform ⟨[], true, text, functions⟩ reported
  | cons source more ih =>
    cases more with
    | nil =>
      refine ⟨[], ⟨[source], true, text, functions⟩, rfl, ?_⟩
      rw [substituteEach, chain, List.flatMap_singleton]
      exact p.pass_eq_perform ⟨[source], true, text, functions⟩ reported
    | cons next more =>
      have hfirst := p.pass_eq_perform ⟨[source], false, text, functions⟩ reported
      dsimp only at hfirst
      rw [substituteEach, hfirst, chain]
      · rcases hperform : p.perform ⟨[source], false, text, functions⟩ with ⟨error | text', state⟩
        · exact ⟨[], ⟨[source], false, text, functions⟩, rfl, by simp [hperform]⟩
        · obtain ⟨front, last, hchain, hrun⟩ := ih text' state.functions
            (p.sink.reportAll state.reported reported)
          refine ⟨⟨[source], false, text, functions⟩ :: front, last, by simp [hchain], ?_⟩
          have hreports : p.reports ⟨[source], false, text, functions⟩ = state.reported := by
            rw [reports, hperform]
          simp only [hreports, List.flatMap_cons, Sink.reportAll_append]
          exact hrun
      · simp
      · simp

/-- **A run ends as its last pass does, and reports what all of them report.** -/
theorem exists_passes_eq (p : Processor σ τ) (chained : Bool) (sources : List Source)
    (text : List Char) (functions : σ) (reported : τ) :
    ∃ front last, p.passes chained sources text functions = front ++ [last] ∧
      p.run chained sources text ⟨functions, reported⟩ =
        ((p.perform last).1, ⟨(p.perform last).2.functions,
          p.sink.reportAll ((p.passes chained sources text functions).flatMap p.reports)
            reported⟩) := by
  cases chained with
  | false =>
    refine ⟨[], ⟨sources, true, text, functions⟩, rfl, ?_⟩
    rw [passes, if_neg Bool.false_ne_true, List.flatMap_singleton]
    exact p.pass_eq_perform ⟨sources, true, text, functions⟩ reported
  | true => exact p.exists_chain_eq sources text functions reported

end Processor

/-- A run over a text that cannot be scanned does nothing. -/
theorem run_of_error {p : Processor σ τ} {text : List Char} {error : SyntaxError}
    (h : scanAll p.options.marker (normalize text) = .error error) (chained : Bool)
    (sources : List Source) (state : RunState σ τ) :
    p.run chained sources text state = (.error (.malformed error), state) := by
  have hpass : ∀ sources collapse,
      p.pass sources collapse text state = (.error (.malformed error), state) :=
    fun _ _ => pass_of_error h state
  cases chained with
  | false => exact hpass sources true
  | true =>
    cases sources with
    | nil => exact hpass [] true
    | cons source more =>
      cases more with
      | nil => exact hpass [source] true
      | cons next more =>
        have hfirst := hpass [source] false
        simp [Processor.run, Processor.substituteEach, hfirst]

/-! ### Sessions -/

/-- A text to be processed, in one pass or in one for each source. -/
structure Request where
  chained : Bool
  sources : List Source
  text : List Char

namespace Processor

/-- Requests made one after another of one processor; an error ends only the request
    that it comes from. -/
def session (p : Processor σ τ) :
    List Request → RunState σ τ → List (Except SubstituteError (List Char)) × RunState σ τ
  | [], state => ([], state)
  | request :: more, state =>
    let (result, state) := p.run request.chained request.sources request.text state
    let (results, state) := p.session more state
    (result :: results, state)

/-- The passes of a session, in the order in which they are made. -/
def sessionPasses (p : Processor σ τ) : List Request → RunState σ τ → List (Pass σ)
  | [], _ => []
  | request :: more, state =>
    p.passes request.chained request.sources request.text state.functions ++
      p.sessionPasses more (p.run request.chained request.sources request.text state).2

/-- **A session reports what its passes report, in their order.** -/
theorem session_reported (p : Processor σ τ) (requests : List Request) (state : RunState σ τ) :
    (p.session requests state).2.reported =
      p.sink.reportAll ((p.sessionPasses requests state).flatMap p.reports) state.reported := by
  induction requests generalizing state with
  | nil => rfl
  | cons request more ih =>
    obtain ⟨front, last, _, hrun⟩ := p.exists_passes_eq request.chained request.sources
      request.text state.functions state.reported
    have hreported : (p.run request.chained request.sources request.text state).2.reported =
        p.sink.reportAll ((p.passes request.chained request.sources request.text
          state.functions).flatMap p.reports) state.reported :=
      congrArg (fun run => run.2.reported) hrun
    simp only [session, sessionPasses, List.flatMap_append, Sink.reportAll_append, ih, hreported]

theorem session_append (p : Processor σ τ) (requests more : List Request)
    (state : RunState σ τ) :
    (p.session (requests ++ more) state).2 = (p.session more (p.session requests state).2).2 := by
  induction requests generalizing state with
  | nil => rfl
  | cons request requests ih => exact ih _

end Processor

end StyleTemplate
