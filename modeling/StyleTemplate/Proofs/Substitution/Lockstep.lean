/-
  **Two runs in step.**

  Two processors go through a text in step if they do so at every token: they write the
  same for it, and the states they are in stay alike (`InStep`).  Then they hand back the
  same text or the same error.  What has been reported is never read again, so processors
  that differ in what they report always are in step (`inStep_of_host_eq`).
-/
import StyleTemplate.Substitution.Basic

namespace StyleTemplate

variable {σ σ' τ υ : Type}

/-- `InStep p q alike`: from states that are alike, both processors write the same for a
    token, and the states stay alike then and when a failure is reported. -/
structure InStep (p : Processor σ τ) (q : Processor σ' υ)
    (alike : RunState σ τ → RunState σ' υ → Prop) : Prop where
  marker : p.options.marker = q.options.marker
  onError : p.options.onError = q.options.onError
  written : ∀ sources token state state', alike state state' →
    (p.replacement? sources token state.functions).1 =
      (q.replacement? sources token state'.functions).1
  replaced : ∀ sources token state state', alike state state' →
    alike { state with functions := (p.replacement? sources token state.functions).2 }
      { state' with functions := (q.replacement? sources token state'.functions).2 }
  reported : ∀ token error state state', alike state state' →
    alike { state with reported := p.reportError token error state.reported }
      { state' with reported := q.reportError token error state'.reported }

/-- Two runs with the same result in states that are alike. -/
structure EndAlike {α : Type} (alike : RunState σ τ → RunState σ' υ → Prop)
    (run : α × RunState σ τ) (run' : α × RunState σ' υ) : Prop where
  result : run.1 = run'.1
  state : alike run.2 run'.2

namespace InStep

variable {p : Processor σ τ} {q : Processor σ' υ} {alike : RunState σ τ → RunState σ' υ → Prop}

theorem replaceAll (h : InStep p q alike) (sources : List Source) (collapse : Bool)
    (tokens : List Token) (text : List Char) {state : RunState σ τ} {state' : RunState σ' υ}
    (halike : alike state state') :
    EndAlike alike (p.replaceAll sources collapse tokens text state)
      (q.replaceAll sources collapse tokens text state') := by
  induction tokens generalizing text state state' with
  | nil => exact ⟨rfl, halike⟩
  | cons token tokens ih =>
    have hwritten := h.written sources token state state' halike
    have hreplaced := h.replaced sources token state state' halike
    simp only [Processor.replaceAll, h.onError]
    by_cases hkept : (token.escape && !collapse) = true
    · rw [if_pos hkept, if_pos hkept]
      exact ih text halike
    · rw [if_neg hkept, if_neg hkept]
      generalize p.replacement? sources token state.functions = one at hwritten hreplaced ⊢
      generalize q.replacement? sources token state'.functions = other at hwritten hreplaced ⊢
      obtain ⟨result, functions⟩ := one
      obtain ⟨result', functions'⟩ := other
      obtain rfl : result = result' := hwritten
      rcases result with error | _ | replacement
      · have hreported := h.reported token error _ _ hreplaced
        cases q.options.onError with
        | report => exact ih text hreported
        | abort => exact ⟨rfl, hreported⟩
      · exact ih text hreplaced
      · exact ih _ hreplaced

theorem pass (h : InStep p q alike) (sources : List Source) (collapse : Bool)
    (text : List Char) {state : RunState σ τ} {state' : RunState σ' υ}
    (halike : alike state state') :
    EndAlike alike (p.pass sources collapse text state) (q.pass sources collapse text state') := by
  simp only [Processor.pass, h.marker]
  split
  · exact ⟨rfl, halike⟩
  · exact h.replaceAll sources collapse _ _ halike

theorem substituteEach (h : InStep p q alike) (sources : List Source) (text : List Char)
    {state : RunState σ τ} {state' : RunState σ' υ} (halike : alike state state') :
    EndAlike alike (p.substituteEach sources text state) (q.substituteEach sources text state') := by
  induction sources generalizing text state state' with
  | nil => exact h.pass [] true text halike
  | cons source more ih =>
    cases more with
    | nil => exact h.pass [source] true text halike
    | cons next more =>
      have hpass := h.pass [source] false text halike
      rw [Processor.substituteEach, Processor.substituteEach]
      · generalize p.pass [source] false text state = run at hpass ⊢
        generalize q.pass [source] false text state' = run' at hpass ⊢
        obtain ⟨result, between⟩ := run
        obtain ⟨result', between'⟩ := run'
        obtain ⟨hresult, hbetween⟩ := hpass
        obtain rfl : result = result' := hresult
        cases result with
        | error error => exact ⟨rfl, hbetween⟩
        | ok text' => exact ih text' hbetween
      · simp
      · simp

end InStep

/-- What one token leaves true, a run does: a processor is in step with itself. -/
theorem inStep_self {p : Processor σ τ} {holds : RunState σ τ → Prop}
    (hreplaced : ∀ sources token state, holds state →
      holds { state with functions := (p.replacement? sources token state.functions).2 })
    (hreported : ∀ token error state, holds state →
      holds { state with reported := p.reportError token error state.reported }) :
    InStep p p fun state state' => state = state' ∧ holds state := by
  refine ⟨rfl, rfl, ?_, ?_, ?_⟩
  · rintro sources token state _ ⟨rfl, -⟩
    rfl
  · rintro sources token state _ ⟨rfl, h⟩
    exact ⟨rfl, hreplaced sources token state h⟩
  · rintro token error state _ ⟨rfl, h⟩
    exact ⟨rfl, hreported token error state h⟩

/-! ### Processors that differ in what they report -/

/-- Functions are in the same state, and what has been reported is alike. -/
structure ToldAlike (alike : τ → υ → Prop) (state : RunState σ τ) (state' : RunState σ υ) :
    Prop where
  functions : state.functions = state'.functions
  reported : alike state.reported state'.reported

/-- With the same functions, it is only the reporting that has to be looked at. -/
theorem inStep_of_host_eq {p : Processor σ τ} {q : Processor σ υ} {alike : τ → υ → Prop}
    (hmarker : p.options.marker = q.options.marker)
    (honError : p.options.onError = q.options.onError) (hhost : p.host = q.host)
    (hreport : ∀ token error told told', alike told told' →
      alike (p.reportError token error told) (q.reportError token error told')) :
    InStep p q (ToldAlike alike) := by
  have hsame : ∀ sources token functions,
      p.replacement? sources token functions = q.replacement? sources token functions := by
    intro sources token functions
    rw [Processor.replacement?, Processor.replacement?, hmarker, hhost]
  refine ⟨hmarker, honError, ?_, ?_, ?_⟩
  · rintro sources token state state' ⟨hfunctions, -⟩
    rw [hsame, hfunctions]
  · rintro sources token state state' ⟨hfunctions, halike⟩
    exact ⟨by rw [hsame, hfunctions], halike⟩
  · rintro token error state state' ⟨hfunctions, halike⟩
    exact ⟨hfunctions, hreport token error _ _ halike⟩

/-- Where failures are reported, under which label and whether at all, takes no processor
    out of step. -/
theorem Processor.inStep_reporting (p : Processor σ τ) (filename : String) (printErrors : Bool)
    (sink : Sink υ) :
    InStep ⟨{ p.options with filename, printErrors }, p.host, sink⟩ p
      (ToldAlike fun _ _ => True) := by
  refine inStep_of_host_eq ?_ ?_ ?_ ?_
  · rfl
  · rfl
  · rfl
  · intro token error told told' _
    trivial

end StyleTemplate
