/-
  **A scanner gets on with its text.**

  A scanner can be asked for the next token, which it refuses once an error has ended the
  scan, or made to scan on behind an error, and the two can be mixed (`Scanner.Call`).
  Whatever it is asked, a call does one of three things (`Scanner.Exchange.Does`): it
  refuses and stays, it finds no marker and goes to the end, or it reads from the next
  marker on and stops behind what it has read, be that a phrase or not.  In the last case
  the marker at least is behind it, so it never stands still there, and never goes back.
-/
import Mathlib.Data.Nat.Basic
import Mathlib.Order.Basic
import StyleTemplate.Proofs.Token.Failure

namespace StyleTemplate

namespace Scanner

/-! ### Calls -/

/-- What a scanner can be asked for. -/
inductive Call where
  | next
  | scanToken
deriving DecidableEq, Repr

/-- The token or the error that a call gives, if any, and the scanner after it. -/
def answer (s : Scanner) : Call → Option (Except SyntaxError Token) × Scanner
  | .next => s.next
  | .scanToken =>
    match s.scanToken with
    | (.ok none, s) => (none, s)
    | (.ok (some token), s) => (some (.ok token), s)
    | (.error error, s) => (some (.error error), s)

/-- A call with what it gives, and the scanner before and after it. -/
structure Exchange where
  call : Call
  before : Scanner
  result : Option (Except SyntaxError Token)
  after : Scanner
deriving Repr

/-- Some calls one after another. -/
def exchanges (s : Scanner) : List Call → List Exchange
  | [] => []
  | call :: calls =>
    let (result, after) := s.answer call
    ⟨call, s, result, after⟩ :: after.exchanges calls

/-- The number of symbols in front of the scanner's place. -/
def place (s : Scanner) : Nat :=
  s.cursor.position.symbol

/-- The stretch of a token, or the one that an error concerns. -/
def extentOf : Except SyntaxError Token → Option Extent
  | .ok token => some (.between token.start token.stop)
  | .error error => error.extent?

/-! ### Scanners of a text -/

/-- The scanner is one of this text, and counts rightly where it stands in it. -/
structure Reads (s : Scanner) (marker : Char) (text : List Char) : Prop where
  marker : s.marker = marker
  source : s.cursor.source = text
  place_le : s.place ≤ text.length
  position : s.cursor.position = .after (text.take s.place)

variable {marker : Char} {text : List Char} {s s' : Scanner}

theorem reads_ofText (marker : Char) (text : List Char) : (ofText marker text).Reads marker text :=
  ⟨rfl, rfl, Nat.zero_le _, rfl⟩

theorem Reads.rest (h : s.Reads marker text) : s.cursor.rest = text.drop s.place := by
  rw [Cursor.rest, h.source, place]

theorem Reads.skipTo (h : s.Reads marker text) {front behind : List Char}
    (hrest : s.cursor.rest = front ++ behind) :
    (s.skipTo behind).Reads marker text ∧ (s.skipTo behind).cursor.rest = behind ∧
      (s.skipTo behind).cursor.position = s.cursor.position.advanceAll front := by
  have hfront : consumed s.cursor.rest behind = front := by
    rw [hrest, consumed_append_right]
  have hmoved : (s.skipTo behind).cursor = s.cursor.moveOver front := by
    rw [Scanner.skipTo, hfront]
  have hplace : (s.skipTo behind).place = s.place + front.length := by
    rw [place, hmoved, Cursor.moveOver, Position.advanceAll_eq, place]
  have htext := h.rest.symm.trans hrest
  have hlength := congrArg List.length htext
  rw [List.length_drop, List.length_append] at hlength
  have hle := h.place_le
  refine ⟨⟨h.marker, h.source, by omega, ?_⟩, ?_, ?_⟩
  · rw [hplace, List.take_add, htext, List.take_left, Position.after_append, ← h.position, hmoved,
      Cursor.moveOver]
  · rw [hmoved]
    exact Cursor.rest_moveOver hrest
  · rw [hmoved, Cursor.moveOver]

/-! ### What a call does -/

/-- What a call can do to a scanner of a text. -/
inductive Exchange.Does (marker : Char) (text : List Char) : Exchange → Prop where
  /-- An error has ended the scan. -/
  | refuse {s : Scanner} :
      s.Reads marker text → s.halted = true → Does marker text ⟨.next, s, none, s⟩
  /-- No marker is left. -/
  | finish {call : Call} {s s' : Scanner} :
      (call = .next → s.halted = false) →
      s.Reads marker text → s'.Reads marker text → marker ∉ s.cursor.rest →
      s'.cursor.rest = [] → s'.halted = s.halted → Does marker text ⟨call, s, none, s'⟩
  /-- The scanner goes to the next marker and reads it, and maybe more. -/
  | find {call : Call} {s s' : Scanner} {result : Except SyntaxError Token}
      {gap written : List Char} :
      (call = .next → s.halted = false) → s.Reads marker text → s'.Reads marker text →
      s.cursor.rest = gap ++ marker :: (written ++ s'.cursor.rest) →
      s'.cursor.position = (s.cursor.position.advanceAll gap).advanceAll (marker :: written) →
      extentOf result = some (.between (s.cursor.position.advanceAll gap) s'.cursor.position) →
      (s.halted = true → s'.halted = true) →
      (call = .next → (∃ error, result = .error error) → s'.halted = true) →
      Does marker text ⟨call, s, some result, s'⟩

theorem Reads.halting (h : s.Reads marker text) :
    ({ s with halted := true } : Scanner).Reads marker text :=
  ⟨h.marker, h.source, h.place_le, h.position⟩

theorem Exchange.Does.of_skipTo (h : s.Reads marker text) {gap written rest : List Char}
    {result : Except SyntaxError Token}
    (hrest : s.cursor.rest = gap ++ marker :: (written ++ rest))
    (hextent : extentOf result = some (.between (s.cursor.position.advanceAll gap)
      ((s.cursor.position.advanceAll gap).advanceAll (marker :: written)))) :
    Does marker text ⟨.scanToken, s, some result, s.skipTo rest⟩ := by
  have hsplit : s.cursor.rest = (gap ++ marker :: written) ++ rest := by simp [hrest]
  obtain ⟨hreads, hleft, hposition⟩ := h.skipTo hsplit
  rw [Position.advanceAll_append] at hposition
  rw [← hposition] at hextent
  exact .find (by simp) h hreads (by rw [hrest, hleft]) hposition hextent id (by simp)

theorem does_scanToken (h : s.Reads marker text) :
    Exchange.Does marker text ⟨.scanToken, s, (s.answer .scanToken).1, (s.answer .scanToken).2⟩ := by
  by_cases hmem : marker ∈ s.cursor.rest
  · obtain ⟨gap, body, hrest, hgap⟩ := List.eq_append_cons_of_mem hmem
    have hstep := scanStep_append hgap s.cursor.position body
    rw [← hrest, ← h.marker] at hstep
    cases hread : Phrase.read marker body with
    | error found =>
      obtain ⟨fault, rest⟩ := found
      obtain ⟨written, rfl⟩ := Phrase.read_fault_suffix hread
      simp only [h.marker, hread, ← List.cons_append, consumed_append_right] at hstep
      simp only [answer, scanToken, h.marker, hstep]
      exact .of_skipTo h hrest (SyntaxError.extent?_ofFault _ _ _ _ _)
    | ok found =>
      obtain ⟨phrase, rest⟩ := found
      obtain ⟨written, rfl⟩ := Phrase.read_rest_suffix hread
      simp only [h.marker, hread, ← List.cons_append, consumed_append_right] at hstep
      simp only [answer, scanToken, h.marker, hstep]
      exact .of_skipTo h hrest rfl
  · have hstep := scanStep_of_not_mem hmem s.cursor.position
    obtain ⟨hreads, hend, -⟩ := h.skipTo (List.append_nil _).symm
    simp only [answer, scanToken, h.marker, hstep]
    exact .finish (by simp) h hreads hmem hend rfl

/-- Unless an error has ended the scan, the next token is scanned for; an error ends the
    scan then. -/
theorem answer_next (h : s.halted = false) :
    s.answer .next =
      match s.answer .scanToken with
      | (some (.error error), s) => (some (.error error), { s with halted := true })
      | found => found := by
  rw [answer, next, if_neg (by simp [h]), answer]
  rcases s.scanToken with ⟨error | _ | token, s'⟩ <;> rfl

/-- **Whatever a scanner of a text is asked, the call does one of the three.** -/
theorem does_answer (h : s.Reads marker text) (call : Call) :
    Exchange.Does marker text ⟨call, s, (s.answer call).1, (s.answer call).2⟩ := by
  have hscan := does_scanToken h
  cases call with
  | scanToken => exact hscan
  | next =>
    cases hhalted : s.halted with
    | true =>
      rw [answer, next, if_pos hhalted]
      exact .refuse h hhalted
    | false =>
      rw [answer_next hhalted]
      generalize s.answer .scanToken = found at hscan ⊢
      obtain ⟨_ | error | token, s'⟩ := found
      · cases hscan with
        | finish _ _ hreads hmem hend hsame =>
          exact .finish (fun _ => hhalted) h hreads hmem hend hsame
      · cases hscan with
        | find _ _ hreads hrest hposition hextent =>
          exact .find (fun _ => hhalted) h hreads.halting hrest hposition hextent
            (fun _ => rfl) (fun _ _ => rfl)
      · cases hscan with
        | find _ _ hreads hrest hposition hextent hkept =>
          exact .find (fun _ => hhalted) h hreads hrest hposition hextent hkept (by simp)

/-! ### What a call leaves -/

section Does

variable {e : Exchange} (h : e.Does marker text)

include h

theorem Exchange.Does.reads_before : e.before.Reads marker text := by
  cases h <;> assumption

theorem Exchange.Does.reads_after : e.after.Reads marker text := by
  cases h <;> assumption

/-- What is found lies between the scanner's places before and after, and takes it on. -/
theorem Exchange.Does.extent {result : Except SyntaxError Token} (hresult : e.result = some result) :
    ∃ extent, extentOf result = some extent ∧ e.before.place ≤ extent.start ∧
      extent.start < extent.stop ∧ extent.stop = e.after.place := by
  cases h with
  | refuse | finish => simp at hresult
  | find _ _ _ _ hposition hextent =>
    obtain rfl := Option.some.inj hresult
    refine ⟨_, hextent, ?_, ?_, rfl⟩
    · simp [Extent.between, place, Position.advanceAll_eq]
    · simp [Extent.between, hposition, Position.advanceAll_eq]

theorem Exchange.Does.place_lt (hresult : e.result ≠ none) : e.before.place < e.after.place := by
  obtain ⟨result, hresult⟩ := Option.ne_none_iff_exists'.1 hresult
  obtain ⟨extent, -, hstart, hlt, hstop⟩ := h.extent hresult
  omega

theorem Exchange.Does.halted (hhalted : e.before.halted = true) : e.after.halted = true := by
  cases h with
  | refuse => exact hhalted
  | finish _ _ _ _ _ hsame => exact hsame.trans hhalted
  | find _ _ _ _ _ _ hkept => exact hkept hhalted

theorem Exchange.Does.halted_of_next (hcall : e.call = .next)
    (herror : ∃ error, e.result = some (.error error)) : e.after.halted = true := by
  obtain ⟨error, herror⟩ := herror
  cases h with
  | refuse | finish => simp at herror
  | find _ _ _ _ _ _ _ hends => exact hends hcall ⟨error, Option.some.inj herror⟩

/-- A scan finds nothing exactly if no marker is left, and goes to the end then. -/
theorem Exchange.Does.result_eq_none_iff (hcall : e.call = .scanToken) :
    (e.result = none ↔ marker ∉ text.drop e.before.place) ∧
      (e.result = none → e.after.place = text.length) := by
  have hrest := h.reads_before.rest
  have hrest' := h.reads_after.rest
  have hle := h.reads_after.place_le
  cases h with
  | refuse => simp at hcall
  | finish _ _ _ hmem hend =>
    refine ⟨by simp [← hrest, hmem], fun _ => ?_⟩
    rw [hend, eq_comm, List.drop_eq_nil_iff] at hrest'
    exact Nat.le_antisymm hle hrest'
  | find _ _ _ hsplit => simp [← hrest, hsplit]

theorem Exchange.Does.place_le : e.before.place ≤ e.after.place := by
  have hle := h.reads_before.place_le
  have hrest' := h.reads_after.rest
  by_cases hresult : e.result = none
  · cases h with
    | refuse => exact Nat.le_refl _
    | finish _ _ _ _ hend =>
      rw [hend, eq_comm, List.drop_eq_nil_iff] at hrest'
      exact Nat.le_trans hle hrest'
    | find => simp at hresult
  · exact (h.place_lt hresult).le

/-- Where no marker is left and where the scan is over, nothing is found. -/
theorem Exchange.Does.result_eq_none (hnone : marker ∉ text.drop e.before.place) :
    e.result = none := by
  rw [← h.reads_before.rest] at hnone
  cases h with
  | refuse | finish => rfl
  | find _ _ _ hsplit => simp [hsplit] at hnone

theorem Exchange.Does.refuses (hcall : e.call = .next) (hhalted : e.before.halted = true) :
    e.result = none ∧ e.after = e.before := by
  cases h with
  | refuse => exact ⟨rfl, rfl⟩
  | finish hasks | find hasks => simp [hasks hcall] at hhalted

end Does

/-! ### Runs of calls -/

/-- One scanner comes from another: it stands no further left, and an error that has ended
    the scan has ended it still. -/
structure Later (s s' : Scanner) : Prop where
  place_le : s.place ≤ s'.place
  halted : s.halted = true → s'.halted = true

theorem Later.trans {s'' : Scanner} (h : Later s s') (h' : Later s' s'') : Later s s'' :=
  ⟨h.place_le.trans h'.place_le, h'.halted ∘ h.halted⟩

theorem Exchange.Does.later {e : Exchange} (h : e.Does marker text) : Later e.before e.after :=
  ⟨h.place_le, h.halted⟩

theorem does_of_mem_exchanges (h : s.Reads marker text) (calls : List Call) :
    ∀ e ∈ s.exchanges calls, e.Does marker text ∧ Later s e.before := by
  induction calls generalizing s with
  | nil => simp [exchanges]
  | cons call calls ih =>
    have hdoes := does_answer h call
    intro e hmem
    rcases List.mem_cons.1 hmem with rfl | hmem
    · exact ⟨hdoes, Nat.le_refl _, id⟩
    · obtain ⟨hdoes', hlater⟩ := ih hdoes.reads_after e hmem
      exact ⟨hdoes', hdoes.later.trans hlater⟩

theorem pairwise_later (h : s.Reads marker text) (calls : List Call) :
    (s.exchanges calls).Pairwise fun a b => Later a.after b.before := by
  induction calls generalizing s with
  | nil => exact .nil
  | cons call calls ih =>
    have hdoes := does_answer h call
    refine .cons ?_ (ih hdoes.reads_after)
    intro b hmem
    exact (does_of_mem_exchanges hdoes.reads_after calls b hmem).2

/-- Each call that finds something takes at least one symbol. -/
theorem countP_exchanges_le (h : s.Reads marker text) (calls : List Call) :
    (s.exchanges calls).countP (·.result.isSome) + s.place ≤ text.length := by
  induction calls generalizing s with
  | nil => simpa [exchanges] using h.place_le
  | cons call calls ih =>
    have hdoes := does_answer h call
    have hle := hdoes.place_le
    have hmore := ih hdoes.reads_after
    rw [exchanges, List.countP_cons]
    cases hresult : (s.answer call).1 with
    | none =>
      simp only [Option.isSome_none, Bool.false_eq_true, if_false]
      dsimp only at hle hmore
      omega
    | some result =>
      have hlt := hdoes.place_lt (by simp [hresult])
      simp only [Option.isSome_some, if_true]
      dsimp only at hlt hmore
      omega

/-- **A scanner gets on with its text, whatever it is asked.**  A scan that finds a token
    or an error goes on behind it; one that finds nothing finds no marker in the rest of the
    text, goes to its end, and leaves nothing to be found.  So no more calls find something
    than there are symbols.  What they find lies from left to right and apart, each between
    the places before and after its call.  And once the next token was an error, there is no
    next one, and asking for it changes nothing. -/
theorem exchanges_progress (marker : Char) (text : List Char) (calls : List Call) :
    let trace := (ofText marker text).exchanges calls
    (∀ e ∈ trace, e.call = .scanToken →
      (e.result ≠ none → e.before.place < e.after.place) ∧
      (e.result = none ↔ marker ∉ text.drop e.before.place) ∧
      (e.result = none → e.after.place = text.length)) ∧
    trace.Pairwise (fun a b => a.call = .scanToken → a.result = none → b.result = none) ∧
    trace.countP (·.result.isSome) ≤ text.length ∧
    (∀ e ∈ trace, ∀ result, e.result = some result → ∃ extent, extentOf result = some extent ∧
      e.before.place ≤ extent.start ∧ extent.start < extent.stop ∧
      extent.stop = e.after.place ∧ extent.stop ≤ text.length) ∧
    trace.Pairwise (fun a b => ∀ first ∈ a.result, ∀ second ∈ b.result,
      ∀ x ∈ extentOf first, ∀ y ∈ extentOf second, x.stop ≤ y.start) ∧
    trace.Pairwise (fun a b => a.call = .next → (∃ error, a.result = some (.error error)) →
      b.call = .next → b.result = none ∧ b.after = b.before) := by
  intro trace
  have hreads := reads_ofText marker text
  have hdoes : ∀ e ∈ trace, e.Does marker text :=
    fun e hmem => (does_of_mem_exchanges hreads calls e hmem).1
  have hlater := pairwise_later hreads calls
  refine ⟨?_, ?_, ?_, ?_, ?_, ?_⟩
  · intro e hmem hcall
    obtain ⟨hnone, hend⟩ := (hdoes e hmem).result_eq_none_iff hcall
    exact ⟨(hdoes e hmem).place_lt, hnone, hend⟩
  · refine hlater.imp_of_mem ?_
    intro a b ha hb hab hcall hresult
    have hnone := ((hdoes a ha).result_eq_none_iff hcall).1.1 hresult
    have hle := (hdoes a ha).place_le.trans hab.place_le
    apply (hdoes b hb).result_eq_none
    rw [← Nat.add_sub_cancel' hle, ← List.drop_drop]
    exact fun hmem => hnone (List.mem_of_mem_drop hmem)
  · exact countP_exchanges_le hreads calls
  · intro e hmem result hresult
    obtain ⟨extent, hextent, hstart, hlt, hstop⟩ := (hdoes e hmem).extent hresult
    exact ⟨extent, hextent, hstart, hlt, hstop, hstop ▸ (hdoes e hmem).reads_after.place_le⟩
  · refine hlater.imp_of_mem ?_
    intro a b ha hb hab first hfirst second hsecond x hx y hy
    obtain ⟨x', hx', -, -, hstop⟩ := (hdoes a ha).extent hfirst
    obtain ⟨y', hy', hstart, -, -⟩ := (hdoes b hb).extent hsecond
    obtain rfl := Option.mem_unique hx hx'
    obtain rfl := Option.mem_unique hy hy'
    have hle := hab.place_le
    omega
  · refine hlater.imp_of_mem ?_
    intro a b ha hb hab hcall herror hcall'
    exact (hdoes b hb).refuses hcall' (hab.halted ((hdoes a ha).halted_of_next hcall herror))

/-- Scanning on behind an argument that is missing starts within the argument list. -/
example :
    ((ofText '$' ['$', 'f', '(', ',', '$', 'a', ')']).exchanges
        [.next, .next, .scanToken, .scanToken, .next]).map
      (fun e => (e.before.place, e.result.bind extentOf, e.after.place)) =
      [(0, some ⟨0, 3, 0⟩, 3), (3, none, 3), (3, some ⟨4, 6, 4⟩, 6), (6, none, 7), (7, none, 7)] := by
  decide +kernel

end Scanner

end StyleTemplate
