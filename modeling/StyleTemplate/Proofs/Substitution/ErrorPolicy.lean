/-
  **Stopping at an error is the reporting run cut short.**

  Until a placeholder fails, a run that stops at errors and a run that reports them
  do the same (`replaceAll_cases`, `pass_cases`).  Then one stops with the diagnostic
  that the other adds, and goes on from.  Whatever the other does after that, it only
  adds to the diagnostics and to the calls made so far (`RunState.Extends`).  In a
  chain of passes the first failure is that of the first pass that has one
  (`CutAtFirst`).
-/
import StyleTemplate.Proofs.Substitution.Recording

namespace StyleTemplate

variable {σ : Type}

/-- A processor that keeps all diagnostics, under an error policy. -/
def Processor.collecting (host : Host σ) (options : Options) (policy : ErrorPolicy) :
    Processor σ (List Diagnostic) where
  options := { options with onError := policy, printErrors := true }
  host
  sink := .memory

/-! ### Two policies side by side -/

section SideBySide

variable {host : Host σ} {options : Options} {sources : List Source} {collapse : Bool}

theorem replaceAll_cons_of_error {token : Token} {functions : σ} {error : ResolveError}
    {state : RunState σ (List Diagnostic)}
    (h : (Processor.collecting host options .abort).replacement? sources token state.functions =
      (.error error, functions))
    (more : List Token) (text : List Char) :
    let stop : RunState σ (List Diagnostic) :=
      ⟨functions, state.reported ++ [.ofToken options.filename token error.message]⟩
    (Processor.collecting host options .abort).replaceAll sources collapse (token :: more) text
        state = (.error (.unresolved token.raw error), stop) ∧
      (Processor.collecting host options .report).replaceAll sources collapse (token :: more) text
        state =
        (Processor.collecting host options .report).replaceAll sources collapse more text stop := by
  have hname : token.escape = false := by
    by_contra hescape
    rw [replacement?_of_escape (by simpa using hescape)] at h
    simp at h
  have h' : (Processor.collecting host options .report).replacement? sources token
      state.functions = (.error error, functions) := h
  simp only [Processor.replaceAll, hname, h, h', Bool.false_and, Bool.false_eq_true, if_false]
  exact ⟨rfl, rfl⟩

/-- At one token, it either fails, or the policy makes no difference. -/
theorem replaceAll_cons_cases (token : Token) (text : List Char)
    (state : RunState σ (List Diagnostic)) :
    (∃ text' functions, ∀ policy more,
      (Processor.collecting host options policy).replaceAll sources collapse (token :: more) text
        state =
      (Processor.collecting host options policy).replaceAll sources collapse more text'
        ⟨functions, state.reported⟩) ∨
    ∃ error functions,
      (Processor.collecting host options .abort).replacement? sources token state.functions =
        (.error error, functions) := by
  by_cases hkept : (token.escape && !collapse) = true
  · refine .inl ⟨text, state.functions, ?_⟩
    intro policy more
    rw [Processor.replaceAll, if_pos hkept]
  · rcases hresult : (Processor.collecting host options .abort).replacement? sources token
      state.functions with ⟨error | _ | replacement, functions⟩
    · exact .inr ⟨error, functions, rfl⟩
    · refine .inl ⟨text, functions, ?_⟩
      intro policy more
      have hresult' : (Processor.collecting host options policy).replacement? sources token
        state.functions = _ := hresult
      rw [Processor.replaceAll, if_neg hkept, hresult']
    · refine .inl ⟨Processor.splice text token replacement, functions, ?_⟩
      intro policy more
      have hresult' : (Processor.collecting host options policy).replacement? sources token
        state.functions = _ := hresult
      rw [Processor.replaceAll, if_neg hkept, hresult']

/-- **Until the first failure the policy makes no difference.** -/
theorem replaceAll_cases (tokens : List Token) (text : List Char)
    (state : RunState σ (List Diagnostic)) :
    (∃ out functions, ∀ policy,
      (Processor.collecting host options policy).replaceAll sources collapse tokens text state =
        (.ok out, ⟨functions, state.reported⟩)) ∨
    ∃ before token behind buffer functions error functions',
      tokens = before ++ token :: behind ∧
      (∀ policy,
        (Processor.collecting host options policy).replaceAll sources collapse before text state =
          (.ok buffer, ⟨functions, state.reported⟩)) ∧
      (Processor.collecting host options .abort).replacement? sources token functions =
        (.error error, functions') := by
  induction tokens generalizing text state with
  | nil => exact .inl ⟨text, state.functions, fun _ => rfl⟩
  | cons token tokens ih =>
    rcases @replaceAll_cons_cases _ host options sources collapse token text state with
      ⟨text', functions', hstep⟩ | ⟨error, functions', herror⟩
    · rcases ih text' ⟨functions', state.reported⟩ with ⟨out, functions, hrun⟩ |
        ⟨before, failing, behind, buffer, functions, error, functions'', rfl, hrun, herror⟩
      · exact .inl ⟨out, functions, fun policy => (hstep policy tokens).trans (hrun policy)⟩
      · exact .inr ⟨token :: before, failing, behind, buffer, functions, error, functions'', rfl,
          fun policy => (hstep policy before).trans (hrun policy), herror⟩
    · exact .inr ⟨[], token, tokens, text, state.functions, error, functions', rfl,
        fun _ => rfl, herror⟩

/-- A pass under both policies: the same, or up to the rightmost token that fails. -/
theorem pass_cases (text : List Char) (state : RunState σ (List Diagnostic)) :
    (∃ result functions, ∀ policy,
      (Processor.collecting host options policy).pass sources collapse text state =
        (result, ⟨functions, state.reported⟩)) ∨
    ∃ left token right buffer functions error functions',
      scanAll options.marker (normalize text) = .ok (left ++ token :: right) ∧
      (∀ policy, (Processor.collecting host options policy).replaceAll sources collapse
        right.reverse (normalize text) state = (.ok buffer, ⟨functions, state.reported⟩)) ∧
      (Processor.collecting host options .abort).replacement? sources token functions =
        (.error error, functions') ∧
      let stop : RunState σ (List Diagnostic) :=
        ⟨functions', state.reported ++ [.ofToken options.filename token error.message]⟩
      (Processor.collecting host options .abort).pass sources collapse text state =
          (.error (.unresolved token.raw error), stop) ∧
        (Processor.collecting host options .report).pass sources collapse text state =
          (Processor.collecting host options .report).replaceAll sources collapse left.reverse
            buffer stop := by
  cases hscan : scanAll options.marker (normalize text) with
  | error error =>
    exact .inl ⟨.error (.malformed error), state.functions, fun _ => pass_of_error hscan state⟩
  | ok tokens =>
    have hpass : ∀ policy, (Processor.collecting host options policy).pass sources collapse text
        state = (Processor.collecting host options policy).replaceAll sources collapse
          tokens.reverse (normalize text) state := fun _ => pass_of_ok hscan state
    rcases @replaceAll_cases _ host options sources collapse tokens.reverse (normalize text) state
      with ⟨out, functions, hrun⟩ |
        ⟨before, token, behind, buffer, functions, error, functions', htokens, hrun, herror⟩
    · exact .inl ⟨.ok out, functions, fun policy => (hpass policy).trans (hrun policy)⟩
    · have hreverse : tokens = behind.reverse ++ token :: before.reverse := by
        rw [← List.reverse_reverse tokens, htokens]
        simp
      have hstop := @replaceAll_cons_of_error _ host options sources collapse token functions'
        error ⟨functions, state.reported⟩ herror behind buffer
      refine .inr ⟨behind.reverse, token, before.reverse, buffer, functions, error, functions',
        congrArg Except.ok hreverse, ?_, herror, ?_⟩
      · simpa using hrun
      · simp only [hpass, htokens, replaceAll_append, hrun, List.reverse_reverse]
        exact hstop

end SideBySide

/-! ### What a run adds -/

/-- Whether one state of a run that is recorded can come behind another. -/
structure RunState.Extends (before after : RunState (σ × List Invocation) (List Diagnostic)) :
    Prop where
  calls : before.functions.2 <+: after.functions.2
  reported : before.reported <+: after.reported

theorem RunState.Extends.refl (state : RunState (σ × List Invocation) (List Diagnostic)) :
    state.Extends state :=
  ⟨List.prefix_rfl, List.prefix_rfl⟩

theorem RunState.Extends.trans {a b c : RunState (σ × List Invocation) (List Diagnostic)}
    (hab : a.Extends b) (hbc : b.Extends c) : a.Extends c :=
  ⟨hab.calls.trans hbc.calls, hab.reported.trans hbc.reported⟩

section Added

variable {host : Host σ} {options : Options} {policy : ErrorPolicy} {sources : List Source}
  {collapse : Bool}

theorem inStep_extends (start : RunState (σ × List Invocation) (List Diagnostic)) :
    InStep (Processor.collecting host options policy).recorded
      (Processor.collecting host options policy).recorded
      fun state state' => state = state' ∧ start.Extends state := by
  apply inStep_self
  · rintro sources token ⟨⟨functions, calls⟩, reported⟩ hextends
    rw [replacement?_recorded]
    exact hextends.trans ⟨List.prefix_append _ _, List.prefix_rfl⟩
  · intro token error state hextends
    exact hextends.trans ⟨List.prefix_rfl, List.prefix_append _ _⟩

theorem extends_replaceAll (tokens : List Token) (text : List Char)
    (state : RunState (σ × List Invocation) (List Diagnostic)) :
    state.Extends ((Processor.collecting host options policy).recorded.replaceAll sources collapse
      tokens text state).2 :=
  ((inStep_extends state).replaceAll sources collapse tokens text ⟨rfl, .refl state⟩).state.2

theorem extends_substituteEach (sources : List Source) (text : List Char)
    (state : RunState (σ × List Invocation) (List Diagnostic)) :
    state.Extends ((Processor.collecting host options policy).recorded.substituteEach sources
      text state).2 :=
  ((inStep_extends state).substituteEach sources text ⟨rfl, .refl state⟩).state.2

end Added

/-! ### Runs cut at the first diagnostic -/

/-- Whether a run that starts with some diagnostics is the full one, which adds none,
    or is cut off where the full one adds its first. -/
inductive CutAtFirst (reported : List Diagnostic)
    (full : Except SubstituteError (List Char) × RunState (σ × List Invocation) (List Diagnostic)) :
    Except SubstituteError (List Char) × RunState (σ × List Invocation) (List Diagnostic) →
      Prop where
  | clean : full.2.reported = reported → CutAtFirst reported full full
  | failed (first : Diagnostic) {error : ResolveError}
      {stop : RunState (σ × List Invocation) (List Diagnostic)} :
      error.message = first.message → stop.reported = reported ++ [first] →
      stop.Extends full.2 → CutAtFirst reported full (.error (.unresolved first.raw error), stop)

section Cut

variable {host : Host σ} {options : Options} {sources : List Source} {collapse : Bool}

theorem collecting_recorded (policy : ErrorPolicy) :
    (Processor.collecting host options policy).recorded =
      Processor.collecting host.recorded options policy :=
  rfl

theorem cutAtFirst_pass (text : List Char)
    (state : RunState (σ × List Invocation) (List Diagnostic)) :
    CutAtFirst state.reported
      ((Processor.collecting host options .report).recorded.pass sources collapse text state)
      ((Processor.collecting host options .abort).recorded.pass sources collapse text state) := by
  rw [collecting_recorded, collecting_recorded]
  rcases @pass_cases _ host.recorded options sources collapse text state with
    ⟨result, functions, hrun⟩ |
      ⟨left, token, right, buffer, functions, error, functions', _, _, _, habort, hreport⟩
  · rw [hrun .report, hrun .abort]
    exact .clean rfl
  · rw [hreport, habort]
    exact .failed (.ofToken options.filename token error.message) rfl rfl
      (extends_replaceAll left.reverse buffer _)

/-- The first failure of a chain is that of the first pass that has one. -/
theorem cutAtFirst_substituteEach (sources : List Source) (text : List Char)
    (state : RunState (σ × List Invocation) (List Diagnostic)) :
    CutAtFirst state.reported
      ((Processor.collecting host options .report).recorded.substituteEach sources text state)
      ((Processor.collecting host options .abort).recorded.substituteEach sources text state) := by
  induction sources generalizing text state with
  | nil => exact cutAtFirst_pass text state
  | cons source more ih =>
    cases more with
    | nil => exact cutAtFirst_pass text state
    | cons next more =>
      have hfirst := @cutAtFirst_pass _ host options [source] false text state
      rw [Processor.substituteEach, Processor.substituteEach]
      · generalize hreport : (Processor.collecting host options .report).recorded.pass [source]
          false text state = full at hfirst
        generalize (Processor.collecting host options .abort).recorded.pass [source] false text
          state = cut at hfirst
        cases hfirst with
        | clean hreported =>
          rcases full with ⟨error | text', state'⟩
          · exact .clean hreported
          · have hmore := ih text' state'
            rwa [show state'.reported = state.reported from hreported] at hmore
        | failed first hmessage hreported hextends =>
          apply CutAtFirst.failed first hmessage hreported
          rcases full with ⟨error | text', state'⟩
          · exact hextends
          · exact hextends.trans (extends_substituteEach (next :: more) text' state')
      · simp
      · simp

end Cut

/-! ### What a call leaves behind -/

/-- What is left of a call: what it hands back, the state of the functions, and all
    diagnostics and calls that it made. -/
structure Outcome (σ : Type) where
  result : Except SubstituteError (List Char)
  functions : σ
  diagnostics : List Diagnostic
  calls : List Invocation

/-- The outcome under an error policy, in one pass or in one for each source. -/
def outcome (host : Host σ) (options : Options) (policy : ErrorPolicy) (chained : Bool)
    (sources : List Source) (text : List Char) (functions : σ) : Outcome σ :=
  let p := Processor.collecting host options policy
  let (result, state) := p.run chained sources text ⟨functions, []⟩
  let recorded := p.recorded.run chained sources text ⟨(functions, []), []⟩
  { result, functions := state.functions, diagnostics := state.reported
    calls := recorded.2.functions.2 }

/-- The outcome of a run that is recorded. -/
def Outcome.ofRun
    (run : Except SubstituteError (List Char) × RunState (σ × List Invocation) (List Diagnostic)) :
    Outcome σ where
  result := run.1
  functions := run.2.functions.1
  diagnostics := run.2.reported
  calls := run.2.functions.2

/-- All of an outcome can be read off the run that is recorded. -/
theorem outcome_eq (host : Host σ) (options : Options) (policy : ErrorPolicy) (chained : Bool)
    (sources : List Source) (text : List Char) (functions : σ) :
    outcome host options policy chained sources text functions =
      .ofRun ((Processor.collecting host options policy).recorded.run chained sources text
        ⟨(functions, []), []⟩) := by
  have hforget := forgetRun_run (Processor.collecting host options policy) chained sources text
    ⟨(functions, []), []⟩
  rw [RunState.forget] at hforget
  rw [outcome, ← hforget]
  rfl

/-- Whether a single pass is cut off at the rightmost token that fails.  The tokens to
    the right of it are replaced without an error; the calls are those for them and
    for the token, and none is for a token to the left of it. -/
inductive CutAtRightmost (host : Host σ) (options : Options) (sources : List Source)
    (text : List Char) (functions : σ) (first : Diagnostic) (cut : Outcome σ) : Prop where
  | intro {left right : List Token} {token : Token} {buffer : List Char} {between : σ}
      {error : ResolveError} :
      scanAll options.marker (normalize text) = .ok (left ++ token :: right) →
      (Processor.collecting host options .abort).replaceAll sources true right.reverse
        (normalize text) ⟨functions, []⟩ = (.ok buffer, ⟨between, []⟩) →
      (Processor.collecting host options .abort).replacement? sources token between =
        (.error error, cut.functions) →
      first = .ofToken options.filename token error.message →
      cut.calls = (token :: right).reverse.filterMap (Token.invocation? sources) →
      CutAtRightmost host options sources text functions first cut

theorem cutAtFirst_run (host : Host σ) (options : Options) (chained : Bool)
    (sources : List Source) (text : List Char)
    (state : RunState (σ × List Invocation) (List Diagnostic)) :
    CutAtFirst state.reported
      ((Processor.collecting host options .report).recorded.run chained sources text state)
      ((Processor.collecting host options .abort).recorded.run chained sources text state) := by
  cases chained with
  | false => exact cutAtFirst_pass text state
  | true => exact cutAtFirst_substituteEach sources text state

theorem cutAtRightmost_outcome (host : Host σ) (options : Options) (sources : List Source)
    (text : List Char) (functions : σ) {first : Diagnostic} {more : List Diagnostic}
    (h : (outcome host options .report false sources text functions).diagnostics = first :: more) :
    CutAtRightmost host options sources text functions first
      (outcome host options .abort false sources text functions) := by
  rw [outcome_eq] at h ⊢
  rw [collecting_recorded] at h ⊢
  simp only [Processor.run, Bool.false_eq_true, if_false, Processor.substitute] at h ⊢
  rcases @pass_cases _ host.recorded options sources true text ⟨(functions, []), []⟩ with
    ⟨result, functions', hrun⟩ |
      ⟨left, token, right, buffer, ⟨between, calls⟩, error, ⟨functions', calls'⟩, hscan, hright,
        herror, habort, hreport⟩
  · rw [hrun .report] at h
    simp [Outcome.ofRun] at h
  · rw [← collecting_recorded, replacement?_recorded, Prod.mk.injEq, Prod.mk.injEq] at herror
    obtain ⟨herror, hfunctions, hcalls'⟩ := herror
    have hcalls : calls = right.reverse.filterMap (Token.invocation? sources) :=
      @calls_replaceAll _ _ sources true (Processor.collecting host options .abort) _ _ _ _ _
        (hright .abort)
    have hplain := @forgetRun_replaceAll _ _ sources true
      (Processor.collecting host options .abort) right.reverse (normalize text)
      ⟨(functions, []), []⟩
    rw [collecting_recorded, hright .abort] at hplain
    have hfirst : [Diagnostic.ofToken options.filename token error.message] <+: first :: more := by
      have hextends := @extends_replaceAll _ host options .report sources true left.reverse buffer
        ⟨(functions', calls'), [.ofToken options.filename token error.message]⟩
      rw [← h, hreport]
      exact hextends.reported
    rw [habort]
    refine .intro hscan hplain.symm (Prod.ext herror hfunctions) ?_ ?_
    · exact (List.cons_prefix_cons.1 hfirst).1.symm
    · rw [List.reverse_cons, List.filterMap_append, filterMap_cons_eq_append, List.filterMap_nil,
        List.append_nil, ← hcalls]
      exact hcalls'.symm

/-- **Stopping at the first error is the reporting run cut at its first diagnostic.**
    Without a diagnostic they are the same run.  With one, the run that stops hands
    back its error, has reported it and nothing else, and has made the first of the
    other's calls; a single pass is cut off at the rightmost token that fails. -/
theorem outcome_abort (host : Host σ) (options : Options) (chained : Bool)
    (sources : List Source) (text : List Char) (functions : σ) :
    let full := outcome host options .report chained sources text functions
    let cut := outcome host options .abort chained sources text functions
    (full.diagnostics = [] → cut = full) ∧
      ∀ first more, full.diagnostics = first :: more →
        (∃ error, cut.result = .error (.unresolved first.raw error) ∧
          error.message = first.message) ∧
        cut.diagnostics = [first] ∧ cut.calls <+: full.calls ∧
        (chained = false → CutAtRightmost host options sources text functions first cut) := by
  intro full cut
  have hcut := cutAtFirst_run host options chained sources text ⟨(functions, []), []⟩
  have hsingle : chained = false → ∀ first more, full.diagnostics = first :: more →
      CutAtRightmost host options sources text functions first cut := by
    rintro rfl first more h
    exact cutAtRightmost_outcome host options sources text functions h
  have hfull : full = _ := outcome_eq host options .report chained sources text functions
  have hcutEq : cut = _ := outcome_eq host options .abort chained sources text functions
  clear_value full cut
  subst hfull hcutEq
  generalize (Processor.collecting host options .report).recorded.run chained sources text
    ⟨(functions, []), []⟩ = fullRun at hcut hsingle ⊢
  generalize (Processor.collecting host options .abort).recorded.run chained sources text
    ⟨(functions, []), []⟩ = cutRun at hcut hsingle ⊢
  cases hcut with
  | clean hreported =>
    refine ⟨fun _ => rfl, ?_⟩
    intro first more h
    exact absurd (hreported.symm.trans h) (by simp)
  | @failed first error stop hmessage hreported hextends =>
    have hprefix : [first] <+: fullRun.2.reported := by
      have hextended := hextends.reported
      rwa [hreported] at hextended
    refine ⟨?_, ?_⟩
    · intro h
      rw [show fullRun.2.reported = [] from h] at hprefix
      simp at hprefix
    · intro first' more h
      rw [show fullRun.2.reported = first' :: more from h, List.cons_prefix_cons] at hprefix
      obtain rfl := hprefix.1
      exact ⟨⟨error, rfl, hmessage⟩, hreported, hextends.calls, fun hone => hsingle hone _ _ h⟩

/-- In a single pass the right one of two failures counts, and only the token behind
    it has been called for.  In a chain the run that reports goes on, to fail on a
    marker that the first source brings in, while the other has stopped before. -/
theorem outcome_abort_both :
    let host : Host Nat :=
      ⟨fun id _ calls => (if id = 0 then some (.string "x") else none, calls + 1)⟩
    let source : Source := ⟨none, [("f", .function 0), ("g", .function 1), ("m", .string "$ ")]⟩
    let single := ['$', 'g', ';', '$', 'f', ';', '$', 'g', ';', '$', 'f']
    let chain := ['$', 'm', '$', 'g']
    let failure (unit16 : Nat) (raw : String) : Diagnostic :=
      ⟨"", raw, "g", unit16, "function returned no value"⟩
    let cut := outcome host {} .abort false [source] single 0
    let fullChain := outcome host {} .report true [source, {}] chain 0
    let cutChain := outcome host {} .abort true [source, {}] chain 0
    (outcome host {} .report false [source] single 0).diagnostics =
        [failure 6 "$g;", failure 0 "$g;"] ∧
      cut.diagnostics = [failure 6 "$g;"] ∧ cut.calls = [(0, []), (1, [])] ∧
      CutAtRightmost host {} [source] single 0 (failure 6 "$g;") cut ∧
      fullChain.diagnostics = [failure 2 "$g"] ∧
      fullChain.result = .error (.malformed (.emptyTokenName '$' ⟨0, 1, 0⟩)) ∧
      ∃ error, cutChain.result = .error (.unresolved "$g" error) := by
  intro host source single chain failure cut fullChain cutChain
  have hsingle : scanAll '$' (normalize single) = .ok [
      ⟨⟨["g"], [], some ';', false⟩, ⟨0, 0, 0⟩, ⟨3, 3, 3⟩, "$g;"⟩,
      ⟨⟨["f"], [], some ';', false⟩, ⟨3, 3, 3⟩, ⟨6, 6, 6⟩, "$f;"⟩,
      ⟨⟨["g"], [], some ';', false⟩, ⟨6, 6, 6⟩, ⟨9, 9, 9⟩, "$g;"⟩,
      ⟨⟨["f"], [], none, false⟩, ⟨9, 9, 9⟩, ⟨11, 11, 11⟩, "$f"⟩] := by
    decide +kernel
  have hchain : scanAll '$' (normalize chain) = .ok [
      ⟨⟨["m"], [], none, false⟩, ⟨0, 0, 0⟩, ⟨2, 2, 2⟩, "$m"⟩,
      ⟨⟨["g"], [], none, false⟩, ⟨2, 2, 2⟩, ⟨4, 4, 4⟩, "$g"⟩] := by
    decide +kernel
  have hsecond : scanAll '$' (normalize ['$', ' ', '$', 'g']) =
      .error (.emptyTokenName '$' ⟨0, 1, 0⟩) := by
    decide +kernel
  have hfull : (outcome host {} .report false [source] single 0).diagnostics =
      [failure 6 "$g;", failure 0 "$g;"] := by
    simp only [outcome, Processor.run, Processor.substitute, Processor.pass, Processor.collecting,
      hsingle]
    rfl
  have hfirst : (Processor.collecting host {} .report).pass [source] false chain ⟨0, []⟩ =
      (.ok ['$', ' ', '$', 'g'], ⟨1, [failure 2 "$g"]⟩) := by
    simp only [Processor.pass, Processor.collecting, hchain]
    rfl
  have hrun : (Processor.collecting host {} .report).run true [source, {}] chain ⟨0, []⟩ =
      (.error (.malformed (.emptyTokenName '$' ⟨0, 1, 0⟩)), ⟨1, [failure 2 "$g"]⟩) := by
    simp only [Processor.run, if_true, Processor.substituteEach, hfirst]
    simp only [Processor.pass, Processor.collecting, hsecond]
  have hfullChain : fullChain.diagnostics = [failure 2 "$g"] := by
    simp only [fullChain, outcome, hrun]
  have hcalls : cut.calls = [(0, []), (1, [])] := by
    simp only [cut, outcome, Processor.recorded, Processor.run, Processor.substitute,
      Processor.pass, Processor.collecting, hsingle]
    rfl
  obtain ⟨_, hcut, _, hrightmost⟩ :=
    (outcome_abort host {} false [source] single 0).2 _ _ hfull
  obtain ⟨⟨error, hstopped, _⟩, _⟩ :=
    (outcome_abort host {} true [source, {}] chain 0).2 _ _ hfullChain
  refine ⟨hfull, hcut, hcalls, hrightmost rfl, hfullChain, ?_, error, hstopped⟩
  simp only [fullChain, outcome, hrun]

end StyleTemplate
