/-
  **Every way in comes to one result.**

  A text can be handed to a processor, to the function that collects the diagnostics, or
  to the processing of style blocks.  They substitute alike, and differ only in what becomes
  of the tokens that fail: reported to a sink or not, beside the text, or under the name
  of the block's file (`entryPoints_agree`).
-/
import StyleTemplate.Proofs.Substitution.Endings
import StyleTemplate.Substitution.StyleBlock

namespace StyleTemplate

variable {σ τ υ : Type}

namespace Processor

/-! ### Results -/

/-- A run comes to the same whatever becomes of failures. -/
theorem run_reporting (p : Processor σ τ) (sources : List Source) (text : List Char)
    (functions : σ) (reported : τ) (sink : Sink υ) (reported' : υ) (filename : String)
    (printErrors chained : Bool) :
    let q : Processor σ υ := ⟨{ p.options with filename, printErrors }, p.host, sink⟩
    let run := q.run chained sources text ⟨functions, reported'⟩
    run.1 = (p.run chained sources text ⟨functions, reported⟩).1 ∧
      run.2.functions = (p.run chained sources text ⟨functions, reported⟩).2.functions := by
  intro q run
  have hstart : ToldAlike (fun _ _ => True) (RunState.mk functions reported')
      (RunState.mk functions reported) :=
    ⟨rfl, trivial⟩
  obtain ⟨hresult, hfunctions, -⟩ :=
    (p.inStep_reporting filename printErrors sink).run chained sources text hstart
  exact ⟨hresult, hfunctions⟩

/-- One pass, its failures and what it reports under any label. -/
theorem exists_ending_substitute (p : Processor σ τ) (sources : List Source) (text : List Char)
    (functions : σ) (reported : τ) :
    ∃ failed,
      Ending p ⟨sources, true, text, functions⟩
        (p.substitute sources text ⟨functions, reported⟩).1 failed ∧
      ∀ (υ : Type) (sink : Sink υ) (reported' : υ) (filename : String) (printErrors : Bool),
        let q : Processor σ υ := ⟨{ p.options with filename, printErrors }, p.host, sink⟩
        q.substitute sources text ⟨functions, reported'⟩ =
          ((p.substitute sources text ⟨functions, reported⟩).1,
            ⟨(p.substitute sources text ⟨functions, reported⟩).2.functions,
              sink.reportAll (q.diagnosticsOf failed) reported'⟩) := by
  obtain ⟨failed, hending, hreports⟩ := p.exists_ending ⟨sources, true, text, functions⟩
  have hperform := p.pass_eq_perform ⟨sources, true, text, functions⟩ reported
  refine ⟨failed, ?_, ?_⟩
  · rw [substitute, hperform]
    exact hending
  · intro υ sink reported' filename printErrors q
    obtain ⟨hresult, hfunctions⟩ :=
      p.run_reporting sources text functions reported sink reported' filename printErrors false
    have hreported : (q.substitute sources text ⟨functions, reported'⟩).2.reported =
        sink.reportAll (q.diagnosticsOf failed) reported' := by
      rw [substitute, q.pass_eq_perform ⟨sources, true, text, functions⟩ reported']
      exact congrArg (sink.reportAll · reported') (hreports filename printErrors)
    rw [← hreported]
    exact Prod.ext hresult (congrArg₂ RunState.mk hfunctions rfl)

end Processor

/-! ### Sinks -/

/-- Nothing can be reported to streams that are broken. -/
theorem Sink.reportAll_streams_of_broken (diagnostics : List Diagnostic) (info error : String) :
    Sink.streams.reportAll diagnostics ⟨⟨true, info⟩, ⟨true, error⟩⟩ =
      ⟨⟨true, info⟩, ⟨true, error⟩⟩ := by
  induction diagnostics with
  | nil => rfl
  | cons d diagnostics ih => exact ih

theorem Processor.run_streams_of_broken (p : Processor σ OutputStreams) (h : p.sink = .streams)
    (chained : Bool) (sources : List Source) (text : List Char) (functions : σ)
    (info error : String) :
    (p.run chained sources text ⟨functions, ⟨⟨true, info⟩, ⟨true, error⟩⟩⟩).2.reported =
      ⟨⟨true, info⟩, ⟨true, error⟩⟩ := by
  obtain ⟨_, _, _, hrun⟩ := p.exists_passes_eq chained sources text functions
    ⟨⟨true, info⟩, ⟨true, error⟩⟩
  rw [hrun, h]
  exact Sink.reportAll_streams_of_broken _ info error

/-! ### Reports and style blocks -/

theorem substituteReport_of_run {host : Host σ} {options : Options} {sources : List Source}
    {text : List Char} {functions : σ}
    {run : Except SubstituteError (List Char) × RunState σ (List Diagnostic)}
    (h : (Processor.mk { options with printErrors := true } host .memory).substitute sources text
      ⟨functions, []⟩ = run) :
    substituteReport host options sources text functions =
      (run.1.map fun out => ⟨out, run.2.reported⟩, run.2.functions) := by
  simp only [substituteReport, h]
  rcases run with ⟨error | out, state⟩
  · rfl
  · rfl

namespace StyleProcessor

theorem accepts_iff (p : StyleProcessor) (lang? : Option String) :
    p.accepts lang? = true ↔ lang?.getD "" ∈ p.langs :=
  List.contains_iff_mem

theorem style_of_accepted {p : StyleProcessor} {block : StyleBlock}
    (h : p.accepts block.lang? = true) (host : Host σ) (sink : Sink τ) (state : RunState σ τ) :
    let q : Processor σ τ := ⟨{ p.options with filename := block.filename?.getD "" }, host, sink⟩
    p.style host sink block state =
      ((q.substitute p.sources block.content state).1.map some,
        (q.substitute p.sources block.content state).2) := by
  intro q
  rw [style, if_pos h]
  dsimp only
  rcases q.substitute p.sources block.content state with ⟨error | out, state'⟩
  · rfl
  · rfl

theorem style_of_declined {p : StyleProcessor} {block : StyleBlock}
    (h : ¬ p.accepts block.lang? = true) (host : Host σ) (sink : Sink τ)
    (state : RunState σ τ) : p.style host sink block state = (.ok none, state) := by
  rw [style, if_neg h]

end StyleProcessor

/-! ### All of them -/

/-- **What is handed back depends neither on the reporting nor on the way in.**  The
    failing tokens are the same everywhere: they are reported under the label in use, or
    not at all.  Functions start in the same state on every way in, and sinks have states
    of their own, which no function sees. -/
theorem entryPoints_agree (p : Processor σ τ) (sources : List Source) (text : List Char)
    (functions : σ) (reported : τ) :
    let result := (p.substitute sources text ⟨functions, reported⟩).1
    (∀ (υ : Type) (sink : Sink υ) (reported' : υ) (filename : String) (printErrors : Bool)
        (chained : Bool),
      let q : Processor σ υ := ⟨{ p.options with filename, printErrors }, p.host, sink⟩
      let run := q.run chained sources text ⟨functions, reported'⟩
      run.1 = (p.run chained sources text ⟨functions, reported⟩).1 ∧
        run.2.functions = (p.run chained sources text ⟨functions, reported⟩).2.functions) ∧
    (∀ (info error filename : String) (printErrors chained : Bool),
      let q : Processor σ OutputStreams :=
        ⟨{ p.options with filename, printErrors }, p.host, .streams⟩
      let broken : OutputStreams := ⟨⟨true, info⟩, ⟨true, error⟩⟩
      let run := q.run chained sources text ⟨functions, broken⟩
      run.1 = (p.run chained sources text ⟨functions, reported⟩).1 ∧
        run.2.reported = broken) ∧
    ∃ failed, Ending p ⟨sources, true, text, functions⟩ result failed ∧
      (substituteReport p.host p.options sources text functions).1 =
        result.map (fun out => ⟨out, failed.map (failureDiagnostic p.options.filename)⟩) ∧
      ∀ (υ : Type) (sink : Sink υ) (reported' : υ) (langs : List String)
        (lang? filename? : Option String),
        let q : StyleProcessor := ⟨sources, p.options, langs⟩
        (lang?.getD "" ∈ langs →
          let run := q.style p.host sink ⟨text, lang?, filename?⟩ ⟨functions, reported'⟩
          run.1 = result.map some ∧
            run.2.reported = sink.reportAll
              (if p.options.printErrors then
                failed.map (failureDiagnostic (filename?.getD "")) else []) reported') ∧
        (lang?.getD "" ∉ langs → ∀ calls : List Invocation,
          q.style p.host.recorded sink ⟨text, lang?, filename?⟩ ⟨(functions, calls), reported'⟩ =
            (.ok none, ⟨(functions, calls), reported'⟩)) := by
  intro result
  refine ⟨?_, ?_, ?_⟩
  · intro υ sink reported' filename printErrors chained
    exact p.run_reporting sources text functions reported sink reported' filename printErrors
      chained
  · intro info error filename printErrors chained q broken run
    obtain ⟨hresult, -⟩ := p.run_reporting sources text functions reported .streams broken
      filename printErrors chained
    exact ⟨hresult, q.run_streams_of_broken rfl chained sources text functions info error⟩
  · obtain ⟨failed, hending, hall⟩ := p.exists_ending_substitute sources text functions reported
    refine ⟨failed, hending, ?_, ?_⟩
    · rw [substituteReport_of_run (hall _ .memory [] p.options.filename true)]
      simp only [Sink.reportAll_memory, List.nil_append]
      rfl
    · intro υ sink reported' langs lang? filename? q
      constructor
      · intro haccepted run
        have hstyle := @StyleProcessor.style_of_accepted _ _ q ⟨text, lang?, filename?⟩
          ((q.accepts_iff lang?).2 haccepted) p.host sink ⟨functions, reported'⟩
        have hpass := hall υ sink reported' (filename?.getD "") p.options.printErrors
        refine ⟨?_, ?_⟩
        · rw [show run = _ from hstyle]
          exact congrArg (fun run => run.1.map some) hpass
        · rw [show run = _ from hstyle]
          exact congrArg (fun run => run.2.reported) hpass
      · intro hdeclined calls
        exact StyleProcessor.style_of_declined (mt (q.accepts_iff lang?).1 hdeclined) _ sink _

theorem entryPoints_agree_labelled :
    let host : Host Nat :=
      ⟨fun id _ calls => (if id = 0 then none else some (.string "x"), calls + 1)⟩
    let sources : List Source := [⟨none, [("b", .function 0), ("f", .function 1)]⟩]
    let text := ['$', 'b', ',', '$', 'f', ' ', '$', '$']
    let p : Processor Nat Unit := ⟨{}, host, .null⟩
    let q : StyleProcessor := ⟨sources, {}, defaultLangs⟩
    let failure (filename : String) : Diagnostic :=
      ⟨filename, "$b", "b", 0, "function returned no value"⟩
    (p.substitute sources text ⟨0, ()⟩).1 = .ok ['$', 'b', ',', 'x', ' ', '$'] ∧
      (substituteReport host {} sources text 0).1 =
        .ok ⟨['$', 'b', ',', 'x', ' ', '$'], [failure ""]⟩ ∧
      "text/css" ∈ defaultLangs ∧
      (q.style host .memory ⟨text, some "text/css", some "a"⟩ ⟨0, []⟩).1 =
        .ok (some ['$', 'b', ',', 'x', ' ', '$']) ∧
      (q.style host .memory ⟨text, some "text/css", some "a"⟩ ⟨0, []⟩).2.reported =
        [failure "a"] ∧
      "scss" ∉ defaultLangs ∧
      q.style host.recorded .memory ⟨text, some "scss", none⟩ ⟨(0, []), []⟩ =
        (.ok none, ⟨(0, []), []⟩) := by
  intro host sources text p q failure
  have hscan : scanAll '$' (normalize text) = .ok [
      ⟨⟨["b"], [], none, false⟩, ⟨0, 0, 0⟩, ⟨2, 2, 2⟩, "$b"⟩,
      ⟨⟨["f"], [], some ' ', false⟩, ⟨3, 3, 3⟩, ⟨6, 6, 6⟩, "$f "⟩,
      ⟨⟨["$"], [], none, true⟩, ⟨6, 6, 6⟩, ⟨8, 8, 8⟩, "$$"⟩] := by
    decide +kernel
  have hkept : ∃ out, (substituteReport host {} sources text 0).1 =
      .ok ⟨out, [failure ""]⟩ := by
    simp only [substituteReport, Processor.substitute, Processor.pass, hscan]
    exact ⟨_, rfl⟩
  have hsilent : (Processor.mk { printErrors := false } host Sink.null).run false sources text
      ⟨0, ()⟩ = (.ok ['$', 'b', ',', 'x', ' ', '$'], ⟨2, ()⟩) := by
    decide +kernel
  have haccepted : "text/css" ∈ defaultLangs := by decide
  have hdeclined : "scss" ∉ defaultLangs := by decide
  obtain ⟨hequal, -, failed, -, hreport, hstyle⟩ := entryPoints_agree p sources text 0 ()
  have hresult : (p.substitute sources text ⟨0, ()⟩).1 = .ok ['$', 'b', ',', 'x', ' ', '$'] :=
    (hequal _ .null () "" false false).1.symm.trans (congrArg Prod.fst hsilent)
  obtain ⟨hcode, hreported⟩ :=
    (hstyle _ .memory [] defaultLangs (some "text/css") (some "a")).1 haccepted
  have hstyled := (hstyle _ .memory [] defaultLangs (some "scss") none).2 hdeclined []
  rw [hresult] at hreport hcode
  obtain ⟨out, hout⟩ := hkept
  obtain ⟨rfl, hfailed⟩ := Report.mk.inj (Except.ok.inj (hout.symm.trans hreport))
  -- the same failures, under another label
  have hlabelled : failed.map (failureDiagnostic "a") = [failure "a"] := by
    calc failed.map (failureDiagnostic "a")
        = (failed.map (failureDiagnostic "")).map fun d => { d with filename := "a" } := by
          rw [List.map_map]; rfl
      _ = [failure "a"] := by rw [← show _ = _ from hfailed]; rfl
  refine ⟨hresult, hout, haccepted, hcode, ?_, hdeclined, hstyled⟩
  rw [show _ = _ from hreported, Sink.reportAll_memory]
  exact hlabelled

end StyleTemplate
