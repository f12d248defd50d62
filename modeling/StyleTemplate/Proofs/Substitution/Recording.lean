/-
  **Recording the calls of a run.**

  Which functions a run calls, and with which arguments, is not part of what it
  hands back.  A host that notes every call in its own state makes it visible
  (`Host.recorded`).  The notes change nothing: without them the run is the one with
  the host as it was (`forgetRun_run`).  Every run appends to the notes, one
  call for each function that it comes across at a token (`calls_replaceAll`).
-/
import StyleTemplate.Proofs.Substitution.Lockstep
import StyleTemplate.Proofs.Substitution.Splicing

namespace StyleTemplate

/-! ### Notes of calls -/

/-- A call of a function with some arguments. -/
abbrev Invocation := FunctionId × List String

variable {σ τ : Type}

/-- The host, with the calls so far beside its state. -/
def Host.recorded (host : Host σ) : Host (σ × List Invocation) where
  call id args state :=
    let (value, functions) := host.call id args state.1
    (value, functions, state.2 ++ [(id, args)])

def Processor.recorded (p : Processor σ τ) : Processor (σ × List Invocation) τ where
  options := p.options
  host := p.host.recorded
  sink := p.sink

/-- The state of a run without the notes. -/
def RunState.forget (state : RunState (σ × List Invocation) τ) : RunState σ τ where
  functions := state.functions.1
  reported := state.reported

/-- A run in one pass, or in one pass for each source. -/
def Processor.run (p : Processor σ τ) (chained : Bool) (sources : List Source)
    (text : List Char) (state : RunState σ τ) :
    Except SubstituteError (List Char) × RunState σ τ :=
  if chained then p.substituteEach sources text state else p.substitute sources text state

/-- The call that writing a value makes. -/
def Value.invocation? (args : List String) : Value → Option Invocation
  | .function id => some (id, args)
  | _ => none

/-- The call that replacing a token makes. -/
def Token.invocation? (sources : List Source) (token : Token) : Option Invocation :=
  if token.escape then
    none
  else
    (lookup? token.path sources).bind fun found => found.2.invocation? token.args

/-! ### One token -/

theorem resolve_recorded (host : Host σ) (value : Value) (args : List String)
    (suffix : Option Char) (functions : σ) (calls : List Invocation) :
    resolve host.recorded value args suffix (functions, calls) =
      ((resolve host value args suffix functions).1,
        (resolve host value args suffix functions).2,
        calls ++ (value.invocation? args).toList) := by
  cases value with
  | function id =>
    rcases hcall : host.call id args functions with ⟨result, functions'⟩
    cases result <;> simp [resolve, Host.recorded, hcall, Value.invocation?]
  | _ => simp [resolve, Value.invocation?]

theorem replacement?_recorded (p : Processor σ τ) (sources : List Source) (token : Token)
    (functions : σ) (calls : List Invocation) :
    p.recorded.replacement? sources token (functions, calls) =
      ((p.replacement? sources token functions).1, (p.replacement? sources token functions).2,
        calls ++ (token.invocation? sources).toList) := by
  cases hescape : token.escape with
  | true => simp [replacement?_of_escape hescape, Token.invocation?, hescape, Processor.recorded]
  | false =>
    cases hlookup : lookup? token.path sources with
    | none => simp [Processor.replacement?, Token.invocation?, hescape, hlookup]
    | some found =>
      obtain ⟨source, value⟩ := found
      have hresolve :=
        resolve_recorded p.host value token.args token.suffix functions calls
      rcases hplain : resolve p.host value token.args token.suffix functions with
        ⟨error | text, functions'⟩
      · rw [hplain] at hresolve
        simp [Processor.replacement?, Token.invocation?, hescape, hlookup, hplain,
          Processor.recorded, hresolve]
      · rw [hplain] at hresolve
        simp [Processor.replacement?, Token.invocation?, hescape, hlookup, hplain,
          Processor.recorded, hresolve]

/-! ### Forgetting the notes -/

variable {sources : List Source} {collapse : Bool}

/-- What a recorded run comes to without its notes. -/
def forgetRun {α : Type} (run : α × RunState (σ × List Invocation) τ) : α × RunState σ τ :=
  (run.1, run.2.forget)

/-- With its calls noted a processor keeps in step with itself. -/
theorem inStep_recorded (p : Processor σ τ) :
    InStep p.recorded p fun state plain => state.forget = plain := by
  refine ⟨rfl, rfl, ?_, ?_, ?_⟩
  · rintro sources token ⟨⟨functions, calls⟩, reported⟩ _ rfl
    rw [replacement?_recorded]
    rfl
  · rintro sources token ⟨⟨functions, calls⟩, reported⟩ _ rfl
    rw [replacement?_recorded]
    rfl
  · rintro token error state _ rfl
    rfl

theorem forgetRun_replaceAll (p : Processor σ τ) (tokens : List Token) (text : List Char)
    (state : RunState (σ × List Invocation) τ) :
    forgetRun (p.recorded.replaceAll sources collapse tokens text state) =
      p.replaceAll sources collapse tokens text state.forget := by
  obtain ⟨hresult, hstate⟩ := (inStep_recorded p).replaceAll sources collapse tokens text
    (show state.forget = _ from rfl)
  exact Prod.ext hresult hstate

theorem forgetRun_pass (p : Processor σ τ) (text : List Char)
    (state : RunState (σ × List Invocation) τ) :
    forgetRun (p.recorded.pass sources collapse text state) =
      p.pass sources collapse text state.forget := by
  obtain ⟨hresult, hstate⟩ := (inStep_recorded p).pass sources collapse text
    (show state.forget = _ from rfl)
  exact Prod.ext hresult hstate

/-- Processors in step run in step. -/
theorem InStep.run {σ' υ : Type} {p : Processor σ τ} {q : Processor σ' υ}
    {alike : RunState σ τ → RunState σ' υ → Prop} (h : InStep p q alike) (chained : Bool)
    (sources : List Source) (text : List Char) {state : RunState σ τ} {state' : RunState σ' υ}
    (halike : alike state state') :
    EndAlike alike (p.run chained sources text state) (q.run chained sources text state') := by
  cases chained with
  | false => exact h.pass sources true text halike
  | true => exact h.substituteEach sources text halike

/-- **Recording the calls changes nothing else.** -/
theorem forgetRun_run (p : Processor σ τ) (chained : Bool) (sources : List Source)
    (text : List Char) (state : RunState (σ × List Invocation) τ) :
    forgetRun (p.recorded.run chained sources text state) =
      p.run chained sources text state.forget := by
  obtain ⟨hresult, hstate⟩ := (inStep_recorded p).run chained sources text
    (show state.forget = _ from rfl)
  exact Prod.ext hresult hstate

/-! ### The notes of a run -/

theorem filterMap_cons_eq_append {α β : Type} (f : α → Option β) (a : α) (l : List α) :
    (a :: l).filterMap f = (f a).toList ++ l.filterMap f := by
  cases h : f a <;> simp [h]

/-- Whether a recorded run makes all calls that are due, behind those noted before, or
    is ended by an error and makes the first of them. -/
inductive CallsMade (policy : ErrorPolicy) (calls due : List Invocation) :
    Except SubstituteError (List Char) × RunState (σ × List Invocation) τ → Prop where
  | all {result : Except SubstituteError (List Char)} {state : RunState (σ × List Invocation) τ} :
      state.functions.2 = calls ++ due → CallsMade policy calls due (result, state)
  | cut {error : SubstituteError} {state : RunState (σ × List Invocation) τ}
      {made : List Invocation} :
      policy = .abort → made <+: due → state.functions.2 = calls ++ made →
      CallsMade policy calls due (.error error, state)

namespace CallsMade

variable {policy : ErrorPolicy} {calls due : List Invocation}

theorem of_ok {out : List Char} {state : RunState (σ × List Invocation) τ}
    (h : CallsMade policy calls due (.ok out, state)) : state.functions.2 = calls ++ due := by
  cases h with
  | all h => exact h

theorem exists_made {run : Except SubstituteError (List Char) × RunState (σ × List Invocation) τ}
    (h : CallsMade policy calls due run) :
    ∃ made, run.2.functions.2 = calls ++ made ∧ made <+: due ∧
      (policy = .report → made = due) := by
  cases h with
  | all h => exact ⟨due, h, List.prefix_rfl, fun _ => rfl⟩
  | cut hpolicy hmade h => exact ⟨_, h, hmade, by simp [hpolicy]⟩

/-- Calls that are made before a run come before those that it makes. -/
theorem append {front : List Invocation}
    {run : Except SubstituteError (List Char) × RunState (σ × List Invocation) τ}
    (h : CallsMade policy (calls ++ front) due run) : CallsMade policy calls (front ++ due) run := by
  cases h with
  | all h => exact .all (by rw [h, List.append_assoc])
  | cut hpolicy hmade h =>
    exact .cut hpolicy ((List.prefix_append_right_inj front).2 hmade) (by rw [h, List.append_assoc])

end CallsMade

/-- Replacing tokens calls the functions found at them, in the order of the tokens. -/
theorem callsMade_replaceAll (p : Processor σ τ) (tokens : List Token) (text : List Char)
    (state : RunState (σ × List Invocation) τ) :
    CallsMade p.options.onError state.functions.2
      (tokens.filterMap (Token.invocation? sources))
      (p.recorded.replaceAll sources collapse tokens text state) := by
  induction tokens generalizing text state with
  | nil => exact .all (by simp)
  | cons token tokens ih =>
    obtain ⟨⟨functions, calls⟩, reported⟩ := state
    rw [filterMap_cons_eq_append]
    simp only [Processor.replaceAll, replacement?_recorded]
    split
    next hkept =>
      have hescape : token.escape = true := (Bool.and_eq_true _ _ ▸ hkept).1
      have hnone : token.invocation? sources = none := by rw [Token.invocation?, if_pos hescape]
      rw [hnone]
      exact ih text ⟨(functions, calls), reported⟩
    next =>
      have hmore : ∀ text functions reported, CallsMade p.options.onError calls
          ((token.invocation? sources).toList ++ tokens.filterMap (Token.invocation? sources))
          (p.recorded.replaceAll sources collapse tokens text
            ⟨(functions, calls ++ (token.invocation? sources).toList), reported⟩) :=
        fun text functions reported => (ih text ⟨(functions, _), reported⟩).append
      rcases p.replacement? sources token functions with ⟨error | _ | replacement, functions'⟩
      · dsimp only
        split
        next => exact hmore text _ _
        next hpolicy => exact .cut hpolicy (List.prefix_append _ _) rfl
      · exact hmore text _ _
      · exact hmore _ _ _

theorem calls_replaceAll {p : Processor σ τ} {tokens : List Token} {text out : List Char}
    {state state' : RunState (σ × List Invocation) τ}
    (h : p.recorded.replaceAll sources collapse tokens text state = (.ok out, state')) :
    state'.functions.2 = state.functions.2 ++ tokens.filterMap (Token.invocation? sources) := by
  have hcalls := @callsMade_replaceAll _ _ sources collapse p tokens text state
  rw [h] at hcalls
  exact hcalls.of_ok

end StyleTemplate
