/-
  **Where a malformed placeholder is reported.**

  A run fails with a syntax error only because the text of its last pass cannot be
  scanned, and the place that the error gives is that of a marker of that text
  (`exists_scanAll_of_run`).  In one pass this is the normal form of the input.  In a
  chain it is what the passes before have made of the input, which need not be the
  input any more (`not_locatedIn_substituteEach`).  The command line takes the normal
  form before the processor does, which makes no difference, and has the place drawn in
  that, for whichever text it is.
-/
import StyleTemplate.CommandLine.Run
import StyleTemplate.Proofs.Substitution.Passes
import StyleTemplate.Proofs.Text.NormalForm
import StyleTemplate.Proofs.Token.ErrorReport

namespace StyleTemplate

variable {σ τ : Type}

/-! ### Syntax errors of a run -/

section Run

variable {p : Processor σ τ} {sources : List Source} {collapse : Bool}

/-- Replacing tokens never ends with a syntax error. -/
theorem exists_unresolved_of_replaceAll {tokens : List Token} {text : List Char}
    {state state' : RunState σ τ} {error : SubstituteError}
    (h : p.replaceAll sources collapse tokens text state = (.error error, state')) :
    ∃ raw cause, error = .unresolved raw cause := by
  induction tokens generalizing text state with
  | nil => simp [Processor.replaceAll] at h
  | cons token tokens ih =>
    rw [Processor.replaceAll] at h
    split at h
    next => exact ih h
    next =>
      rcases hresult : p.replacement? sources token state.functions with
        ⟨cause | _ | replacement, functions⟩ <;> simp only [hresult] at h
      · split at h
        next => exact ih h
        next => exact ⟨token.raw, cause, by simpa [eq_comm] using congrArg Prod.fst h⟩
      · exact ih h
      · exact ih h

theorem scanAll_of_pass_malformed {text : List Char} {state state' : RunState σ τ}
    {error : SyntaxError}
    (h : p.pass sources collapse text state = (.error (.malformed error), state')) :
    scanAll p.options.marker (normalize text) = .error error := by
  cases hscan : scanAll p.options.marker (normalize text) with
  | error error' =>
    rw [pass_of_error hscan] at h
    obtain rfl : error' = error := by simpa using congrArg Prod.fst h
    rfl
  | ok tokens =>
    rw [pass_of_ok hscan] at h
    obtain ⟨raw, cause, hcause⟩ := exists_unresolved_of_replaceAll h
    simp at hcause

end Run

theorem exists_chain_eq_cons (p : Processor σ τ) (sources : List Source) (text : List Char)
    (functions : σ) : ∃ first more, p.chain sources text functions = first :: more ∧
      first.text = text := by
  match sources with
  | [] => exact ⟨_, [], rfl, rfl⟩
  | [last] => exact ⟨_, [], rfl, rfl⟩
  | source :: next :: more =>
    rw [Processor.chain]
    · split
      · exact ⟨_, _, rfl, rfl⟩
      · exact ⟨_, [], rfl, rfl⟩
    · simp

/-- The first pass of a run works on the input. -/
theorem exists_passes_eq_cons (p : Processor σ τ) (chained : Bool) (sources : List Source)
    (text : List Char) (functions : σ) :
    ∃ first more, p.passes chained sources text functions = first :: more ∧ first.text = text := by
  cases chained with
  | false => exact ⟨_, [], rfl, rfl⟩
  | true => exact exists_chain_eq_cons p sources text functions

/-- **A syntax error is that of the text of the last pass.**  This is the input if there
    is no pass before. -/
theorem exists_scanAll_of_run {p : Processor σ τ} {chained : Bool} {sources : List Source}
    {text : List Char} {state state' : RunState σ τ} {error : SyntaxError}
    (h : p.run chained sources text state = (.error (.malformed error), state')) :
    ∃ front last, p.passes chained sources text state.functions = front ++ [last] ∧
      scanAll p.options.marker (normalize last.text) = .error error ∧
      (front = [] → last.text = text) := by
  obtain ⟨front, last, hpasses, hrun⟩ :=
    p.exists_passes_eq chained sources text state.functions state.reported
  refine ⟨front, last, hpasses, ?_, ?_⟩
  · have hresult : (p.perform last).1 = .error (.malformed error) :=
      (congrArg Prod.fst (hrun.symm.trans h))
    exact scanAll_of_pass_malformed (p := p.remembering)
      (Prod.ext hresult rfl : p.perform last = (.error (.malformed error), (p.perform last).2))
  · rintro rfl
    obtain ⟨first, more, hfirst, htext⟩ :=
      exists_passes_eq_cons p chained sources text state.functions
    obtain ⟨rfl, -⟩ : last = first ∧ [] = more := by simpa using hpasses.symm.trans hfirst
    exact htext

/-! ### On the command line -/

namespace CommandLine

/-- The processor of a command line. -/
def processor (options : Options) : Processor Unit OutputStream where
  options
  host := noFunctions
  sink := .stream

/-- The state in which a command line starts. -/
def start : RunState Unit OutputStream where
  functions := ()
  reported := {}

theorem process_of_malformed {wording : Wording} {i : Invocation} {options : Options}
    {sources : List Source} {text : List Char} {error : SyntaxError}
    {state : RunState Unit OutputStream}
    (h : (processor options).run i.chained sources (normalize text) start =
      (.error (.malformed error), state)) :
    process wording i options sources text =
      { exit := 1
        stderr := state.reported.written ++
          error.format wording.draw (normalize text) i.label } := by
  rw [Processor.run, processor, start] at h
  simp only [process, h, errorText]

end CommandLine

/-- **A syntax error is located at a marker of the text that could not be scanned.**
    That is the normal form of the input in one pass, and in a chain that of what the
    last pass works on.  As long as this has the normal form of the input, the report
    that the command line has drawn starts at a marker there, and shows the line and the
    column of that. -/
theorem locatedIn_of_malformed (p : Processor σ τ) :
    (∀ sources text state error state',
      p.substitute sources text state = (.error (.malformed error), state') →
      error.LocatedIn p.options.marker (normalize text)) ∧
    (∀ sources text state error state',
      p.substituteEach sources text state = (.error (.malformed error), state') →
      ∃ front last, p.chain sources text state.functions = front ++ [last] ∧
        error.LocatedIn p.options.marker (normalize last.text) ∧
        (front = [] → last.text = text)) ∧
    (∀ (wording : CommandLine.Wording) (i : CommandLine.Invocation) options sources text error
        state,
      let processor := CommandLine.processor options
      processor.run i.chained sources (normalize text) CommandLine.start =
        (.error (.malformed error), state) →
      (i.chained = true → ∀ last ∈ (processor.chain sources (normalize text) ()).getLast?,
        normalize last.text = normalize text) →
      ∃ extent shown, error.extent? = some extent ∧
        (normalize text)[extent.start]? = some options.marker ∧
        CommandLine.process wording i options sources text =
          { exit := 1, stderr := state.reported.written ++ shown } ∧
        shown = (wording.draw
          ⟨i.label, extent.start, error.message, extent.start, extent.stop, error.message⟩
          (normalize text)).getD error.message ∧
        (wording.draw.Shows → ∃ location : Location,
          location.IsAt (normalize text) extent.start ∧
          s!"{i.label}:{location.line}:{location.column}".toList <:+: shown.toList)) := by
  refine ⟨?_, ?_, ?_⟩
  · intro sources text state error state' h
    exact locatedIn_of_scanAll (scanAll_of_pass_malformed h)
  · intro sources text state error state' h
    have hrun : p.run true sources text state = (.error (.malformed error), state') := h
    obtain ⟨front, last, hpasses, hscan, hinput⟩ := exists_scanAll_of_run hrun
    exact ⟨front, last, hpasses, locatedIn_of_scanAll hscan, hinput⟩
  · intro wording i options sources text error state processor h hsame
    obtain ⟨front, last, hpasses, hscan, hinput⟩ := exists_scanAll_of_run h
    have htext : normalize last.text = normalize text := by
      cases hchained : i.chained with
      | false =>
        rw [hchained, Processor.passes, if_neg Bool.false_ne_true] at hpasses
        have hfront : front = [] := by simpa using congrArg List.length hpasses
        rw [hinput hfront, normalize_idem]
      | true =>
        rw [hchained] at hpasses
        have hchain : processor.chain sources (normalize text) () = front ++ [last] := hpasses
        apply hsame hchained
        simp [hchain]
    rw [htext] at hscan
    have hle := (scanFrom_eq_error_iff.1 hscan).start_le_stop
    obtain ⟨hextent, hmarker, hstop, -⟩ := locatedIn_of_scanAll hscan
    obtain ⟨hstart, -⟩ := List.getElem?_eq_some_iff.1 hmarker
    refine ⟨_, _, hextent, hmarker, CommandLine.process_of_malformed h,
      SyntaxError.format_eq hextent wording.draw (normalize text) i.label, fun hdraw => ?_⟩
    exact ⟨_, Location.isAt_ofOffset hstart, SyntaxError.location_infix_format hdraw hextent
      (hle _ hextent) hstart hstop i.label (Location.isAt_ofOffset hstart)⟩

/-- Without values a chain fails where the input does.  A value that ends with a marker
    makes a malformed placeholder of the terminator behind it. -/
theorem locatedIn_of_malformed_chained :
    let p : Processor Unit Unit := ⟨{}, CommandLine.noFunctions, .null⟩
    let source : Source := ⟨none, [("a", .string "x$")]⟩
    let text := ['a', '\n', '$']
    let i : CommandLine.Invocation := { chained := true }
    let error : SyntaxError := .emptyTokenName '$' ⟨2, 3, 2⟩
    error.LocatedIn '$' (normalize text) ∧
      (∃ front last, p.chain [source, {}] ['$', 'a', ';'] () = front ++ [last] ∧
        (SyntaxError.emptyTokenName '$' ⟨1, 2, 1⟩).LocatedIn '$' (normalize last.text)) ∧
      ∃ shown, CommandLine.process .plain i {} [{}, {}] text =
          { exit := 1, stderr := shown } ∧
        "<stdin>:2:1".toList <:+: shown.toList := by
  intro p source text i error
  have hscan : scanAll '$' (normalize text) = .error error := by decide +kernel
  have hvalue : p.substituteEach [source, {}] ['$', 'a', ';'] ⟨(), ()⟩ =
      (.error (.malformed (.emptyTokenName '$' ⟨1, 2, 1⟩)), ⟨(), ()⟩) := by
    decide +kernel
  have hrun : (CommandLine.processor {}).run i.chained [{}, {}] (normalize text)
      CommandLine.start = (.error (.malformed error), CommandLine.start) := by
    decide +kernel
  have hchain : (CommandLine.processor {}).chain [{}, {}] (normalize text) () =
      [⟨[{}], false, text, ()⟩] := by
    decide +kernel
  obtain ⟨hsingle, heach, hprocess⟩ := locatedIn_of_malformed p
  refine ⟨hsingle [] text ⟨(), ()⟩ error ⟨(), ()⟩ (pass_of_error hscan _), ?_, ?_⟩
  · obtain ⟨front, last, hpasses, hlocated, _⟩ := heach _ _ _ _ _ hvalue
    exact ⟨front, last, hpasses, hlocated⟩
  · have hsame : i.chained = true → ∀ last ∈ ((CommandLine.processor {}).chain [{}, {}]
        (normalize text) ()).getLast?, normalize last.text = normalize text := by
      intro _ last hlast
      rw [hchain] at hlast
      obtain rfl := Option.some.inj hlast
      rfl
    obtain ⟨extent, shown, hextent, -, hprocess, -, hshown⟩ :=
      hprocess .plain i {} [{}, {}] text error CommandLine.start hrun hsame
    obtain rfl := Option.some.inj hextent
    obtain ⟨location, hlocation, hshown⟩ := hshown Drawing.plain_shows
    have hnormal : normalize text = text := by decide +kernel
    rw [hnormal] at hlocation
    obtain rfl : location = ⟨2, 1⟩ := hlocation.unique (Location.isAt_ofOffset (by decide))
    rw [hprocess]
    exact ⟨shown, congrArg (CommandLine.Outcome.mk 1 "") String.empty_append, hshown⟩

/-- With a value that ends with a marker, the input has no marker at the place that
    the error of a chain gives. -/
theorem not_locatedIn_substituteEach :
    ¬ ∀ (p : Processor Unit Unit) sources text state error state',
      p.substituteEach sources text state = (.error (.malformed error), state') →
      error.LocatedIn p.options.marker (normalize text) := by
  intro h
  let p : Processor Unit Unit := ⟨{}, CommandLine.noFunctions, .null⟩
  let source : Source := ⟨none, [("a", .string "x$")]⟩
  have hrun : p.substituteEach [source, {}] ['$', 'a', ';'] ⟨(), ()⟩ =
      (.error (.malformed (.emptyTokenName '$' ⟨1, 2, 1⟩)), ⟨(), ()⟩) := by
    decide +kernel
  obtain ⟨hextent, hmarker, _⟩ := h p [source, {}] _ _ _ _ hrun
  obtain rfl := Option.some.inj hextent
  have hnormal : normalize ['$', 'a', ';'] = ['$', 'a', ';'] := by decide +kernel
  rw [hnormal] at hmarker
  exact absurd hmarker (by decide)

end StyleTemplate
