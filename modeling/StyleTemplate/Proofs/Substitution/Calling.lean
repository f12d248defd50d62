/-
  **Which functions are called.**

  A token whose path leads to a function calls it, once and with the arguments of the
  token.  So the calls that are due for a pass can be read off the scan of its text
  (`Processor.due`).  A run makes the calls that are due for its passes and no other
  (`callsMade_run`): what is found inside of a value, or comes back from a function,
  is written or refused, but never called.
-/
import StyleTemplate.Proofs.Substitution.Passes

namespace StyleTemplate

variable {σ τ : Type}

/-! ### Calls that are due -/

namespace Processor

/-- The calls that are due for a pass, from the last token of its text to the first;
    none if the text cannot be scanned. -/
def due (p : Processor σ τ) (pass : Pass σ) : List Invocation :=
  match scanAll p.options.marker (normalize pass.text) with
  | .ok tokens => tokens.reverse.filterMap (Token.invocation? pass.sources)
  | .error _ => []

theorem due_of_ok {p : Processor σ τ} {pass : Pass σ} {tokens : List Token}
    (h : scanAll p.options.marker (normalize pass.text) = .ok tokens) :
    p.due pass = tokens.reverse.filterMap (Token.invocation? pass.sources) := by
  rw [due, h]

theorem due_of_error {p : Processor σ τ} {pass : Pass σ} {error : SyntaxError}
    (h : scanAll p.options.marker (normalize pass.text) = .error error) : p.due pass = [] := by
  rw [due, h]

end Processor

/-- A function is called for a token only if the path of the token leads to it. -/
theorem Token.invocation?_eq_some {sources : List Source} {token : Token} {call : Invocation}
    (h : token.invocation? sources = some call) :
    token.escape = false ∧ token.args = call.2 ∧
      ∃ source, lookup? token.path sources = some (source, .function call.1) := by
  rw [Token.invocation?] at h
  split at h
  next => simp at h
  next hescape =>
    obtain ⟨⟨source, value⟩, hlookup, hcall⟩ := Option.bind_eq_some_iff.1 h
    cases value with
    | function id =>
      obtain rfl := Option.some.inj hcall
      exact ⟨by simpa using hescape, rfl, source, hlookup⟩
    | _ => simp [Value.invocation?] at hcall

/-- Where a call comes from: from a token of the text of a pass whose path leads to
    the function, with the arguments of the token. -/
inductive Processor.CallOf (p : Processor σ τ) (pass : Pass σ) (call : Invocation) : Prop where
  | intro {tokens : List Token} {token : Token} {source : Source} :
      scanAll p.options.marker (normalize pass.text) = .ok tokens → token ∈ tokens →
      token.escape = false → token.args = call.2 →
      lookup? token.path pass.sources = some (source, .function call.1) → CallOf p pass call

theorem callOf_of_mem_due {p : Processor σ τ} {pass : Pass σ} {call : Invocation}
    (h : call ∈ p.due pass) : p.CallOf pass call := by
  cases hscan : scanAll p.options.marker (normalize pass.text) with
  | error error =>
    rw [Processor.due_of_error hscan] at h
    simp at h
  | ok tokens =>
    rw [Processor.due_of_ok hscan] at h
    obtain ⟨token, hmem, hcall⟩ := List.mem_filterMap.1 h
    obtain ⟨hescape, hargs, source, hlookup⟩ := Token.invocation?_eq_some hcall
    exact .intro hscan (List.mem_reverse.1 hmem) hescape hargs hlookup

/-! ### Calls that are made -/

theorem callsMade_pass (p : Processor σ τ) (pass : Pass σ)
    (state : RunState (σ × List Invocation) τ) :
    CallsMade p.options.onError state.functions.2 (p.due pass)
      (p.recorded.pass pass.sources pass.collapse pass.text state) := by
  cases hscan : scanAll p.options.marker (normalize pass.text) with
  | error error =>
    rw [Processor.due_of_error hscan, pass_of_error (p := p.recorded) hscan]
    exact .all (by simp)
  | ok tokens =>
    rw [Processor.due_of_ok hscan, pass_of_ok (p := p.recorded) hscan]
    exact callsMade_replaceAll p tokens.reverse (normalize pass.text) state

/-- Without the notes, a recorded pass is the pass. -/
theorem forgetRun_pass_eq_perform (p : Processor σ τ) (pass : Pass σ)
    {state state' : RunState (σ × List Invocation) τ}
    {result : Except SubstituteError (List Char)} (hfunctions : pass.functions = state.functions.1)
    (h : p.recorded.pass pass.sources pass.collapse pass.text state = (result, state')) :
    (p.perform pass).1 = result ∧ (p.perform pass).2.functions = state'.functions.1 := by
  have hplain := @forgetRun_pass _ _ pass.sources pass.collapse p pass.text state
  have hpass := p.pass_eq_perform pass state.reported
  rw [hfunctions] at hpass
  have hboth := hplain.trans hpass
  rw [h] at hboth
  exact ⟨(congrArg Prod.fst hboth).symm, (congrArg (fun run => run.2.functions) hboth).symm⟩

theorem callsMade_substituteEach (p : Processor σ τ) (sources : List Source) (text : List Char)
    (state : RunState (σ × List Invocation) τ) :
    CallsMade p.options.onError state.functions.2
      ((p.chain sources text state.functions.1).flatMap p.due)
      (p.recorded.substituteEach sources text state) := by
  induction sources generalizing text state with
  | nil =>
    rw [Processor.substituteEach, Processor.chain, List.flatMap_singleton]
    exact callsMade_pass p ⟨[], true, text, state.functions.1⟩ state
  | cons source more ih =>
    cases more with
    | nil =>
      rw [Processor.substituteEach, Processor.chain, List.flatMap_singleton]
      exact callsMade_pass p ⟨[source], true, text, state.functions.1⟩ state
    | cons next more =>
      have hfirst := callsMade_pass p ⟨[source], false, text, state.functions.1⟩ state
      rw [Processor.substituteEach, Processor.chain]
      · dsimp only at hfirst
        rcases hrun : p.recorded.pass [source] false text state with ⟨_, state'⟩
        obtain ⟨hresult, hfunctions⟩ :=
          forgetRun_pass_eq_perform p ⟨[source], false, text, state.functions.1⟩ rfl hrun
        rcases hperform : p.perform ⟨[source], false, text, state.functions.1⟩ with ⟨result, after⟩
        rw [hperform] at hresult hfunctions
        obtain rfl : result = _ := hresult
        rw [hrun] at hfirst
        cases result with
        | error error =>
          rw [List.flatMap_singleton]
          exact hfirst
        | ok text' =>
          have hmore := ih text' state'
          rw [hfirst.of_ok, ← hfunctions] at hmore
          exact hmore.append
      · simp
      · simp

/-- **A run makes the calls that are due for its passes**, and no other. -/
theorem callsMade_run (p : Processor σ τ) (chained : Bool) (sources : List Source)
    (text : List Char) (state : RunState (σ × List Invocation) τ) :
    CallsMade p.options.onError state.functions.2
      ((p.passes chained sources text state.functions.1).flatMap p.due)
      (p.recorded.run chained sources text state) := by
  cases chained with
  | false =>
    rw [Processor.passes, if_neg Bool.false_ne_true, List.flatMap_singleton]
    exact callsMade_pass p ⟨sources, true, text, state.functions.1⟩ state
  | true => exact callsMade_substituteEach p sources text state

/-- **Functions are called for the tokens that name them.**  Going on behind errors, a
    text that can be scanned calls the functions that its tokens lead to, once each,
    from the last token to the first, with the arguments of the token.  Under any
    policy, the calls of a run are the first of those that are due for its passes, and
    each is of a function at the very end of the path of a token; writing a value calls
    that value if it is a function, but nothing inside of it, nor what it hands back.
    A text that cannot be scanned calls nothing and reports nothing. -/
theorem calls_eq_due (p : Processor σ τ) :
    (p.options.onError = .report → ∀ sources text state tokens,
      scanAll p.options.marker (normalize text) = .ok tokens →
      ∃ out state', p.recorded.substitute sources text state = (.ok out, state') ∧
        p.substitute sources text state.forget = (.ok out, state'.forget) ∧
        state'.functions.2 =
          state.functions.2 ++ tokens.reverse.filterMap (Token.invocation? sources)) ∧
    (∀ chained sources text state, ∃ made,
      (p.recorded.run chained sources text state).2.functions.2 = state.functions.2 ++ made ∧
      made <+: (p.passes chained sources text state.functions.1).flatMap p.due ∧
      (p.options.onError = .report →
        made = (p.passes chained sources text state.functions.1).flatMap p.due) ∧
      ∀ call ∈ made, ∃ pass ∈ p.passes chained sources text state.functions.1,
        p.CallOf pass call) ∧
    (∀ (value : Value) args suffix functions calls,
      (resolve p.host.recorded value args suffix (functions, calls)).2.2 =
        calls ++ (value.invocation? args).toList) ∧
    (∀ chained sources text state error,
      scanAll p.options.marker (normalize text) = .error error →
      p.recorded.run chained sources text state = (.error (.malformed error), state)) := by
  refine ⟨?_, ?_, ?_, ?_⟩
  · intro hpolicy sources text state tokens hscan
    obtain ⟨out, state', hreplace⟩ := @exists_replaceAll_eq_ok _ _ p.recorded sources true
      hpolicy tokens.reverse (normalize text) state
    have hrun : p.recorded.substitute sources text state = (.ok out, state') :=
      (pass_of_ok (p := p.recorded) hscan state).trans hreplace
    have hplain : forgetRun (p.recorded.substitute sources text state) =
        p.substitute sources text state.forget := forgetRun_pass p text state
    rw [hrun] at hplain
    exact ⟨out, state', hrun, hplain.symm, calls_replaceAll hreplace⟩
  · intro chained sources text state
    have hcalls := callsMade_run p chained sources text state
    obtain ⟨made, hmade, hfront, hall⟩ := hcalls.exists_made
    refine ⟨made, hmade, hfront, hall, ?_⟩
    intro call hcall
    obtain ⟨pass, hpass, hdue⟩ := List.mem_flatMap.1 (hfront.subset hcall)
    exact ⟨pass, hpass, callOf_of_mem_due hdue⟩
  · intro value args suffix functions calls
    rw [resolve_recorded]
  · intro chained sources text state error hscan
    exact run_of_error (p := p.recorded) hscan chained sources state

/-- `f` hands back a function, and `s` is a sequence of one: of all the functions
    there, only the two that tokens lead to are called, the last one first.  A run
    that stops at errors calls none, since the last marker names nothing. -/
theorem calls_eq_due_nested :
    let host : Host Unit :=
      ⟨fun id _ _ => (some (if id = 0 then .function 1 else .string "x"), ())⟩
    let source : Source :=
      ⟨none, [("f", .function 0), ("g", .function 2), ("s", .sequence [.function 3])]⟩
    let p : Processor Unit (List Diagnostic) := ⟨{}, host, .memory⟩
    let strict : Processor Unit (List Diagnostic) := ⟨{ onError := .abort }, host, .memory⟩
    (∃ out state', p.recorded.substitute [source] ['$', 'g', '(', 'a', ')', '$', 's', '$', 'f']
        ⟨((), []), []⟩ = (.ok out, state') ∧ state'.functions.2 = [(0, []), (2, ["a"])]) ∧
      strict.recorded.run false [source] ['$', 'f', '$'] ⟨((), []), []⟩ =
        (.error (.malformed (.emptyTokenName '$' ⟨2, 3, 2⟩)), ⟨((), []), []⟩) := by
  intro host source p strict
  have hscan : scanAll '$' (normalize ['$', 'g', '(', 'a', ')', '$', 's', '$', 'f']) = .ok [
      ⟨⟨["g"], ["a"], none, false⟩, ⟨0, 0, 0⟩, ⟨5, 5, 5⟩, "$g(a)"⟩,
      ⟨⟨["s"], [], none, false⟩, ⟨5, 5, 5⟩, ⟨7, 7, 7⟩, "$s"⟩,
      ⟨⟨["f"], [], none, false⟩, ⟨7, 7, 7⟩, ⟨9, 9, 9⟩, "$f"⟩] := by
    decide +kernel
  have herror : scanAll '$' (normalize ['$', 'f', '$']) =
      .error (.emptyTokenName '$' ⟨2, 3, 2⟩) := by
    decide +kernel
  constructor
  · obtain ⟨hreport, _⟩ := calls_eq_due p
    obtain ⟨out, state', hrun, _, hcalls⟩ := hreport rfl [source] _ ⟨((), []), []⟩ _ hscan
    exact ⟨out, state', hrun, hcalls⟩
  · obtain ⟨_, _, _, hmalformed⟩ := calls_eq_due strict
    exact hmalformed false [source] _ ⟨((), []), []⟩ _ herror

end StyleTemplate
