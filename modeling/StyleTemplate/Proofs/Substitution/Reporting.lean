/-
  **What is reported.**

  A pass that goes on behind errors leaves one diagnostic for each token that a
  source has and that cannot be written, and no other (`Failures`).  Tokens are taken
  from the last to the first, so the diagnostics come in the falling order of the
  places of their tokens.  With the passes of a session one after another this says
  what is in a sink that keeps everything (`reported_eq_failures`).
-/
import StyleTemplate.Proofs.Substitution.Passes

namespace StyleTemplate

variable {σ τ : Type}

/-! ### Tokens that cannot be written -/

/-- `Failures host sources tokens functions failed functions'`: of some tokens, which are
    resolved in this order with functions in the state `functions` at first, exactly
    those in `failed` have a value that cannot be written, each for the error beside
    it.  In the end functions are in the state `functions'`. -/
inductive Failures (host : Host σ) (sources : List Source) :
    List Token → σ → List (Token × ResolveError) → σ → Prop where
  | nil {functions : σ} : Failures host sources [] functions [] functions
  | escape {token : Token} {tokens : List Token} {failed : List (Token × ResolveError)}
      {functions functions' : σ} :
      token.escape = true → Failures host sources tokens functions failed functions' →
      Failures host sources (token :: tokens) functions failed functions'
  | notFound {token : Token} {tokens : List Token} {failed : List (Token × ResolveError)}
      {functions functions' : σ} :
      token.escape = false → lookup? token.path sources = none →
      Failures host sources tokens functions failed functions' →
      Failures host sources (token :: tokens) functions failed functions'
  | resolved {token : Token} {tokens : List Token} {failed : List (Token × ResolveError)}
      {source : Source} {value : Value} {text : String} {functions between functions' : σ} :
      token.escape = false → lookup? token.path sources = some (source, value) →
      resolve host value token.args token.suffix functions = (.ok text, between) →
      Failures host sources tokens between failed functions' →
      Failures host sources (token :: tokens) functions failed functions'
  | failed {token : Token} {tokens : List Token} {failed : List (Token × ResolveError)}
      {source : Source} {value : Value} {error : ResolveError} {functions between functions' : σ} :
      token.escape = false → lookup? token.path sources = some (source, value) →
      resolve host value token.args token.suffix functions = (.error error, between) →
      Failures host sources tokens between failed functions' →
      Failures host sources (token :: tokens) functions ((token, error) :: failed) functions'

theorem Failures.sublist {host : Host σ} {sources : List Source} {tokens : List Token}
    {failed : List (Token × ResolveError)} {functions functions' : σ}
    (h : Failures host sources tokens functions failed functions') :
    (failed.map Prod.fst).Sublist tokens := by
  induction h with
  | nil => exact .slnil
  | escape _ _ ih => exact ih.cons _
  | notFound _ _ _ ih => exact ih.cons _
  | resolved _ _ _ _ ih => exact ih.cons _
  | failed _ _ _ _ ih => exact ih.cons_cons _

/-- The diagnostic of a token that cannot be written. -/
def failureDiagnostic (filename : String) (failure : Token × ResolveError) : Diagnostic :=
  .ofToken filename failure.1 failure.2.message

/-- **Going on behind errors, a run reports the tokens that cannot be written.** -/
theorem exists_failures_of_replaceAll {p : Processor σ τ} (hpolicy : p.options.onError = .report)
    (hprint : p.options.printErrors = true) (sources : List Source) (collapse : Bool)
    (tokens : List Token) (text : List Char) (functions : σ) (kept : List Diagnostic) :
    ∃ out failed functions', Failures p.host sources tokens functions failed functions' ∧
      p.remembering.replaceAll sources collapse tokens text ⟨functions, kept⟩ =
        (.ok out, ⟨functions', kept ++ failed.map (failureDiagnostic p.options.filename)⟩) := by
  induction tokens generalizing text functions kept with
  | nil => exact ⟨text, [], functions, .nil, by simp [Processor.replaceAll]⟩
  | cons token tokens ih =>
    simp only [Processor.replaceAll, Processor.remembering_options, hpolicy]
    split
    next hkept =>
      obtain ⟨hescape, -⟩ : token.escape = true ∧ collapse = false := by simpa using hkept
      obtain ⟨out, failed, functions', hfailed, hrun⟩ := ih text functions kept
      exact ⟨out, failed, functions', .escape hescape hfailed, hrun⟩
    next =>
      have hwritten := written_replacement? p.remembering sources token functions
      generalize p.remembering.replacement? sources token functions = result at hwritten ⊢
      cases hwritten with
      | escape hescape =>
        obtain ⟨out, failed, functions', hfailed, hrun⟩ := ih _ functions kept
        exact ⟨out, failed, functions', .escape hescape hfailed, hrun⟩
      | notFound hname hlookup =>
        obtain ⟨out, failed, functions', hfailed, hrun⟩ := ih text functions kept
        exact ⟨out, failed, functions', .notFound hname hlookup hfailed, hrun⟩
      | @failed _ _ error between hname hlookup hresolve =>
        have hreport : p.remembering.reportError token error kept =
            kept ++ [failureDiagnostic p.options.filename (token, error)] := by
          rw [Processor.reportError, Processor.remembering_options, if_pos hprint]
          rfl
        obtain ⟨out, failed, functions', hfailed, hrun⟩ := ih text between
          (kept ++ [failureDiagnostic p.options.filename (token, error)])
        refine ⟨out, (token, error) :: failed, functions', .failed hname hlookup hresolve hfailed, ?_⟩
        rw [List.append_assoc] at hrun
        dsimp only
        rw [hreport]
        exact hrun
      | @resolved _ _ replacement between hname hlookup hresolve =>
        obtain ⟨out, failed, functions', hfailed, hrun⟩ := ih _ between kept
        exact ⟨out, failed, functions', .resolved hname hlookup hresolve hfailed, hrun⟩

/-! ### The order of the diagnostics -/

theorem Scanned.pairwise_start {marker : Char} {before text : List Char} {gaps : List (List Char)}
    {tokens : List Token} (h : Scanned marker (.after before) text gaps tokens) :
    tokens.Pairwise fun a b => a.start.unit16 < b.start.unit16 := by
  refine h.pairwise_atMost.imp_of_mem ?_
  intro a b ha _ hab
  have hnonempty := (h.standsIn a ha).nonempty
  exact Nat.lt_of_lt_of_le hnonempty.unit16 hab.unit16

/-- The diagnostics of tokens that are taken from the last to the first. -/
theorem Failures.pairwise_unit16 {host : Host σ} {sources : List Source} {marker : Char}
    {before text : List Char} {gaps : List (List Char)} {tokens : List Token}
    {failed : List (Token × ResolveError)} {functions functions' : σ}
    (h : Failures host sources tokens.reverse functions failed functions')
    (hscan : Scanned marker (.after before) text gaps tokens) (filename : String) :
    (failed.map (failureDiagnostic filename)).Pairwise fun a b => b.unit16 < a.unit16 := by
  have hfalling := (List.pairwise_reverse.2 hscan.pairwise_start).sublist h.sublist
  rw [List.pairwise_map] at hfalling ⊢
  exact hfalling

/-! ### Silence -/

/-- A pass has nothing to report if diagnostics are not asked for. -/
theorem reports_of_silent {p : Processor σ τ} (h : p.options.printErrors = false)
    (pass : Pass σ) : p.reports pass = [] := by
  have hstep : InStep p.remembering p.remembering
      fun state state' => state = state' ∧ state.reported = [] := by
    apply inStep_self
    · intro sources token state hnone
      exact hnone
    · intro token error state hnone
      rw [Processor.reportError, Processor.remembering_options, h, if_neg Bool.false_ne_true]
      exact hnone
  exact (hstep.pass pass.sources pass.collapse pass.text ⟨rfl, rfl⟩).state.2

/-! ### What is in the sink -/

/-- **The sink holds the failures, and they hold it in order.**  Going on behind
    errors, a text leaves one diagnostic for each token that has a value which cannot
    be written, from the last such token to the first.  Under any policy, what a
    session leaves in the sink is what each of its passes would leave in an empty
    one, in their order, and more requests only add to it.  Nothing is left if
    diagnostics are not asked for. -/
theorem reported_eq_failures (host : Host σ) (options : Options) :
    let p : Processor σ (List Diagnostic) := ⟨options, host, .memory⟩
    (options.onError = .report → options.printErrors = true →
      ∀ sources text state out state', p.substitute sources text state = (.ok out, state') →
        ∃ tokens failed, scanAll options.marker (normalize text) = .ok tokens ∧
          Failures host sources tokens.reverse state.functions failed state'.functions ∧
          ∃ diagnostics, state'.reported = state.reported ++ diagnostics ∧
            diagnostics = failed.map (fun failure =>
              { filename := options.filename
                raw := failure.1.raw
                path := failure.1.name
                unit16 := utf16Length ((normalize text).take failure.1.start.symbol)
                message := failure.2.message }) ∧
            diagnostics.Pairwise fun a b => b.unit16 < a.unit16) ∧
    (∀ requests state, (p.session requests state).2.reported =
      state.reported ++ (p.sessionPasses requests state).flatMap fun pass =>
        (p.pass pass.sources pass.collapse pass.text ⟨pass.functions, []⟩).2.reported) ∧
    (∀ requests more state, (p.session requests state).2.reported <+:
      (p.session (requests ++ more) state).2.reported) ∧
    (options.printErrors = false → ∀ requests state,
      (p.session requests state).2.reported = state.reported) := by
  intro p
  have hsession : ∀ requests state, (p.session requests state).2.reported =
      state.reported ++ (p.sessionPasses requests state).flatMap p.reports := by
    intro requests state
    rw [p.session_reported, show p.sink = .memory from rfl, Sink.reportAll_memory]
  refine ⟨?_, hsession, ?_, ?_⟩
  · intro hpolicy hprint sources text state out state' hrun
    cases hscan : scanAll options.marker (normalize text) with
    | error error =>
      have hfail : p.substitute sources text state = (.error (.malformed error), state) :=
        pass_of_error hscan state
      rw [hfail] at hrun
      simp at hrun
    | ok tokens =>
      obtain ⟨out', failed, functions', hfailed, hreplace⟩ :=
        exists_failures_of_replaceAll (p := p) hpolicy hprint sources true tokens.reverse
          (normalize text) state.functions state.reported
      have hstate := (hrun.symm.trans (pass_of_ok hscan state)).trans hreplace
      obtain ⟨-, rfl⟩ := Prod.mk.inj hstate
      obtain ⟨gaps, hlayout⟩ := exists_scanned hscan
      refine ⟨tokens, failed, rfl, hfailed, _, rfl, ?_, hfailed.pairwise_unit16 hlayout _⟩
      apply List.map_congr_left
      intro failure hmem
      have htoken : failure.1 ∈ tokens :=
        List.mem_reverse.1 (hfailed.sublist.subset (List.mem_map_of_mem hmem))
      have hstart := congrArg Position.unit16 (hlayout.standsIn _ htoken).start_eq
      rw [Position.after_unit16, List.nil_append] at hstart
      rw [failureDiagnostic, Diagnostic.ofToken, hstart]
  · intro requests more state
    rw [p.session_append, hsession more]
    exact List.prefix_append _ _
  · intro hsilent requests state
    have hnothing : p.reports = fun _ => [] := funext (reports_of_silent hsilent)
    rw [hsession, hnothing]
    simp

/-- The escape and the token of an unknown name leave nothing, and `f` is written
    while `g` gives no value: one diagnostic each for the two tokens of `g`, from the
    right.  Then a chain, with a request behind it, of a processor that is asked for
    diagnostics and of one that is not. -/
theorem reported_eq_failures_both :
    let host : Host Nat :=
      ⟨fun id _ calls => (if id = 0 then some (.string "x") else none, calls + 1)⟩
    let source : Source := ⟨none, [("f", .function 0), ("g", .function 1)]⟩
    let text := ['$', 'g', '$', '$', '$', 'h', '$', 'f', '$', 'g']
    let p : Processor Nat (List Diagnostic) := ⟨{}, host, .memory⟩
    let silent : Processor Nat (List Diagnostic) := ⟨{ printErrors := false }, host, .memory⟩
    let failure (unit16 : Nat) : Diagnostic :=
      ⟨"", "$g", "g", unit16, "function returned no value"⟩
    let requests : List Request := [⟨true, [source, {}], text⟩, ⟨false, [source], text⟩]
    ∃ out, p.substitute [source] text ⟨0, []⟩ = (.ok out, ⟨3, [failure 8, failure 0]⟩) ∧
      (∃ tokens failed, scanAll '$' (normalize text) = .ok tokens ∧
        Failures host [source] tokens.reverse 0 failed 3 ∧
        [failure 8, failure 0] = failed.map (fun failed =>
          ⟨"", failed.1.raw, failed.1.name,
            utf16Length ((normalize text).take failed.1.start.symbol), failed.2.message⟩) ∧
        [failure 8, failure 0].Pairwise fun a b => b.unit16 < a.unit16) ∧
      (p.session requests ⟨0, []⟩).2.reported =
        (p.sessionPasses requests ⟨0, []⟩).flatMap (fun pass =>
          (p.pass pass.sources pass.collapse pass.text ⟨pass.functions, []⟩).2.reported) ∧
      (silent.session requests ⟨0, []⟩).2.reported = [] := by
  intro host source text p silent failure requests
  have hscan : scanAll '$' (normalize text) = .ok [
      ⟨⟨["g"], [], none, false⟩, ⟨0, 0, 0⟩, ⟨2, 2, 2⟩, "$g"⟩,
      ⟨⟨["$"], [], none, true⟩, ⟨2, 2, 2⟩, ⟨4, 4, 4⟩, "$$"⟩,
      ⟨⟨["h"], [], none, false⟩, ⟨4, 4, 4⟩, ⟨6, 6, 6⟩, "$h"⟩,
      ⟨⟨["f"], [], none, false⟩, ⟨6, 6, 6⟩, ⟨8, 8, 8⟩, "$f"⟩,
      ⟨⟨["g"], [], none, false⟩, ⟨8, 8, 8⟩, ⟨10, 10, 10⟩, "$g"⟩] := by
    decide +kernel
  have hrun : ∃ out, p.substitute [source] text ⟨0, []⟩ =
      (.ok out, ⟨3, [failure 8, failure 0]⟩) := by
    simp only [Processor.substitute, Processor.pass, p, hscan]
    exact ⟨_, rfl⟩
  obtain ⟨out, hrun⟩ := hrun
  clear_value requests
  obtain ⟨hfailed, hsession, _⟩ := reported_eq_failures host {}
  obtain ⟨tokens, failed, htokens, hfailures, diagnostics, hreported, heach, horder⟩ :=
    hfailed rfl rfl [source] text ⟨0, []⟩ out _ hrun
  replace hreported : [failure 8, failure 0] = diagnostics := hreported
  rw [← hreported] at heach horder
  obtain ⟨_, _, _, hsilent⟩ := reported_eq_failures host { printErrors := false }
  exact ⟨out, hrun, ⟨tokens, failed, htokens, hfailures, heach, horder⟩,
    (hsession requests ⟨0, []⟩).trans (List.nil_append _), hsilent rfl requests ⟨0, []⟩⟩

end StyleTemplate
