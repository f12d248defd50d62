/-
  **Where a quoted argument ends.**

  A quoted argument is read in turns: a run of symbols that stand for themselves, then a
  single symbol, and after a backslash one more, whatever it is (`QuoteScan`).  In every
  state of that loop what has been read is a form of the value so far, and a backslash if
  one is pending (`QuoteScan.Reads`).  A form ends in an even number of backslashes and no
  quote closes within it, so the argument ends at the first quote with an even number of
  backslashes before it (`ClosesFirst`), or not at all.
-/
import Mathlib.Data.Nat.Find
import StyleTemplate.Proofs.Text.EvenRun
import StyleTemplate.Proofs.Token.Malformed

namespace StyleTemplate

/-! ### Closing quotes -/

/-- At this index stands a quote that closes: the number of backslashes right before it
    is even. -/
def Closes (quote : Char) (text : List Char) (i : Nat) : Prop :=
  text[i]? = some quote ∧ EvenRun '\\' (text.take i)

/-- The first of the places where a quote closes. -/
def ClosesFirst (quote : Char) (text : List Char) (i : Nat) : Prop :=
  Closes quote text i ∧ ∀ j < i, ¬ Closes quote text j

/-- No quote closes. -/
def StaysOpen (quote : Char) (text : List Char) : Prop :=
  ∀ i, ¬ Closes quote text i

instance (quote : Char) (text : List Char) (i : Nat) : Decidable (Closes quote text i) :=
  inferInstanceAs (Decidable (_ ∧ _))

instance (quote : Char) (text : List Char) (i : Nat) : Decidable (ClosesFirst quote text i) :=
  inferInstanceAs (Decidable (_ ∧ _))

/-- A text without the backslashes that stand before a quote or another backslash, taken
    in pairs from the left. -/
def unescaped (quote : Char) : List Char → List Char
  | '\\' :: c :: text =>
    if c = quote ∨ c = '\\' then c :: unescaped quote text else '\\' :: unescaped quote (c :: text)
  | c :: text => c :: unescaped quote text
  | [] => []

section Closing

variable {quote : Char} {front text : List Char} {i j : Nat}

theorem Closes.lt_length (h : Closes quote text i) : i < text.length := by
  obtain ⟨hi, -⟩ := List.getElem?_eq_some_iff.1 h.1
  exact hi

/-- Behind an even number of backslashes, a quote closes if it does so on its own. -/
theorem closes_append_iff (h : EvenRun '\\' front) :
    Closes quote (front ++ text) i ↔
      Closes quote front i ∨ front.length ≤ i ∧ Closes quote text (i - front.length) := by
  by_cases hi : i < front.length
  · rw [Closes, List.getElem?_append_left hi, List.take_append_of_le_length hi.le]
    constructor
    · exact .inl
    · rintro (hfront | ⟨hle, -⟩)
      · exact hfront
      · exact absurd hi (not_lt.2 hle)
  · have hle := not_lt.1 hi
    rw [Closes, List.getElem?_append_right hle, List.take_append, List.take_of_length_le hle,
      evenRun_append_iff h]
    constructor
    · exact fun htext => .inr ⟨hle, htext⟩
    · rintro (hfront | ⟨-, htext⟩)
      · exact absurd hfront.lt_length hi
      · exact htext

instance (quote : Char) (text : List Char) : Decidable (StaysOpen quote text) :=
  decidable_of_iff (∀ i < text.length, ¬ Closes quote text i)
    ⟨fun h i hi => h i hi.lt_length hi, fun h i _ => h i⟩

theorem ClosesFirst.unique (h : ClosesFirst quote text i) (h' : ClosesFirst quote text j) :
    i = j := by
  rcases lt_trichotomy i j with hlt | heq | hgt
  · exact absurd h.1 (h'.2 i hlt)
  · exact heq
  · exact absurd h'.1 (h.2 j hgt)

theorem exists_closesFirst (h : ∃ i, Closes quote text i) : ∃ i, ClosesFirst quote text i :=
  ⟨Nat.find h, Nat.find_spec h, fun _ hj => Nat.find_min h hj⟩

theorem staysOpen_nil (quote : Char) : StaysOpen quote [] := by
  intro i h
  exact absurd h.lt_length (Nat.not_lt_zero i)

theorem staysOpen_singleton {c : Char} (hc : c ≠ quote) : StaysOpen quote [c] := by
  intro i h
  obtain rfl : i = 0 := Nat.lt_one_iff.1 h.lt_length
  exact hc (Option.some.inj h.1)

/-- A quote right behind a backslash does not close. -/
theorem staysOpen_pair (hquote : quote ≠ '\\') (c : Char) : StaysOpen quote ['\\', c] := by
  have hodd : ¬ EvenRun '\\' ['\\'] := by decide
  rintro i ⟨hget, heven⟩
  match i with
  | 0 => exact hquote (Option.some.inj hget).symm
  | 1 => exact hodd heven
  | i + 2 => simp at hget

theorem StaysOpen.append (heven : EvenRun '\\' front) (hfront : StaysOpen quote front)
    (htext : StaysOpen quote text) : StaysOpen quote (front ++ text) := by
  intro i h
  rcases (closes_append_iff heven).1 h with hcloses | ⟨-, hcloses⟩
  · exact hfront i hcloses
  · exact htext _ hcloses

theorem closesFirst_append_cons (heven : EvenRun '\\' front) (hfront : StaysOpen quote front)
    (text : List Char) : ClosesFirst quote (front ++ quote :: text) front.length := by
  constructor
  · refine (closes_append_iff heven).2 (.inr ⟨le_rfl, ?_⟩)
    rw [Nat.sub_self]
    exact ⟨rfl, (by decide : EvenRun '\\' [])⟩
  · intro j hj h
    rcases (closes_append_iff heven).1 h with hcloses | ⟨hle, -⟩
    · exact hfront j hcloses
    · exact absurd hj (not_lt.2 hle)

end Closing

/-! ### Forms of a quoted argument -/

section Form

variable {quote : Char} {written value : List Char}

theorem QuotedForm.evenRun (h : QuotedForm quote written value) : EvenRun '\\' written := by
  induction h with
  | empty => decide
  | @symbol c _ _ _ hbackslash _ ih => exact (evenRun_concat_of_ne hbackslash []).append ih
  | @escaped c _ _ _ _ ih => exact (evenRun_pair '\\' c).append ih
  | @kept c _ _ _ _ _ ih => exact (evenRun_pair '\\' c).append ih

theorem QuotedForm.staysOpen (hquote : quote ≠ '\\') (h : QuotedForm quote written value) :
    StaysOpen quote written := by
  induction h with
  | empty => exact staysOpen_nil quote
  | @symbol c _ _ hc hbackslash _ ih =>
    exact .append (evenRun_concat_of_ne hbackslash []) (staysOpen_singleton hc) ih
  | @escaped c _ _ _ _ ih => exact .append (evenRun_pair '\\' c) (staysOpen_pair hquote c) ih
  | @kept c _ _ _ _ _ ih => exact .append (evenRun_pair '\\' c) (staysOpen_pair hquote c) ih

theorem QuotedForm.closesFirst (hquote : quote ≠ '\\') (h : QuotedForm quote written value)
    (text : List Char) : ClosesFirst quote (written ++ quote :: text) written.length :=
  closesFirst_append_cons h.evenRun (h.staysOpen hquote) text

/-- Without a closing quote, nothing closes, not even behind a backslash at the end. -/
theorem QuotedForm.staysOpen_append (hquote : quote ≠ '\\') (h : QuotedForm quote written value)
    {final : List Char} (hfinal : final = [] ∨ final = ['\\']) :
    StaysOpen quote (written ++ final) := by
  rcases hfinal with rfl | rfl
  · exact .append h.evenRun (h.staysOpen hquote) (staysOpen_nil quote)
  · exact .append h.evenRun (h.staysOpen hquote) (staysOpen_singleton hquote.symm)

theorem QuotedForm.unescaped_eq (h : QuotedForm quote written value) :
    unescaped quote written = value := by
  have hsymbol {c : Char} (hc : c ≠ '\\') (text : List Char) :
      unescaped quote (c :: text) = c :: unescaped quote text :=
    unescaped.eq_2 quote c text fun _ _ heq => absurd heq hc
  induction h with
  | empty => rfl
  | symbol _ hbackslash _ ih => rw [hsymbol hbackslash, ih]
  | escaped hc _ ih => rw [unescaped, if_pos hc, ih]
  | kept hquote hbackslash _ ih =>
    rw [unescaped, if_neg (not_or.2 ⟨hquote, hbackslash⟩), hsymbol hbackslash, ih]

theorem QuotedForm.append {written' value' : List Char} (h : QuotedForm quote written value)
    (h' : QuotedForm quote written' value') :
    QuotedForm quote (written ++ written') (value ++ value') := by
  induction h with
  | empty => exact h'
  | symbol hquote hbackslash _ ih => exact .symbol hquote hbackslash ih
  | escaped hc _ ih => exact .escaped hc ih
  | kept hquote hbackslash _ ih => exact .kept hquote hbackslash ih

theorem quotedForm_run {run : List Char} (h : ∀ c ∈ run, isQuotedBody quote c = true) :
    QuotedForm quote run run := by
  induction run with
  | nil => exact .empty
  | cons c run ih =>
    have hc := h c List.mem_cons_self
    simp only [isQuotedBody, Bool.not_eq_true', Bool.or_eq_false_iff, beq_eq_false_iff_ne] at hc
    exact .symbol hc.1 hc.2 (ih fun d hd => h d (List.mem_cons_of_mem c hd))

end Form

/-! ### Where the reader ends -/

section Reader

variable {quote : Char} {text : List Char}

theorem readQuoted_of_closesFirst (hquote : isQuote quote = true) {i : Nat}
    (h : ClosesFirst quote text i) :
    readQuoted quote text = some (unescaped quote (text.take i), text.drop (i + 1)) := by
  have hbackslash := ne_backslash_of_isQuote hquote
  cases hread : readQuoted quote text with
  | none =>
    obtain ⟨written, value, final, rfl, hform, hfinal⟩ := exists_openQuote hread
    exact absurd h.1 (hform.staysOpen_append hbackslash hfinal i)
  | some result =>
    obtain ⟨written, rfl, hform⟩ := exists_quotedForm hread
    obtain rfl := h.unique (hform.closesFirst hbackslash result.2)
    rw [List.take_left, hform.unescaped_eq, List.drop_length_add_append]
    rfl

theorem readQuoted_of_staysOpen (hquote : isQuote quote = true) (h : StaysOpen quote text) :
    readQuoted quote text = none := by
  cases hread : readQuoted quote text with
  | none => rfl
  | some result =>
    obtain ⟨written, rfl, hform⟩ := exists_quotedForm hread
    exact absurd (hform.closesFirst (ne_backslash_of_isQuote hquote) result.2).1 (h _)

theorem readArgument_quote (hquote : isQuote quote = true) (text : List Char) :
    readArgument (quote :: text) =
      match readQuoted quote text with
      | some (body, rest) => .ok (String.ofList body, rest)
      | none => .error (.openQuote, []) := by
  have hskip := skipWhite_of_noneNext (.cons (isWhite_of_isQuote hquote) text)
  rw [readArgument, hskip]
  cases hread : readQuoted quote text with
  | none => simp only [hquote, if_true, hread]
  | some result => simp only [hquote, if_true, hread]

end Reader

/-! ### The loop -/

/-- A state of the loop that reads a quoted argument. -/
structure QuoteScan where
  cursor : Cursor
  /-- What has been read of the argument. -/
  value : List Char := []
  /-- Whether a backslash has been read that may yet be dropped. -/
  pending : Bool := false

namespace QuoteScan

/-- What a turn of the loop comes to. -/
inductive Turn where
  | again (next : QuoteScan)
  | closed (value : List Char) (cursor : Cursor)
  | ended (cursor : Cursor)
  | unreadable (cause : ReadError) (cursor : Cursor)

/-- What a backslash and the symbol behind it say. -/
def pairValue (quote c : Char) : List Char :=
  if c == quote || c == '\\' then [c] else ['\\', c]

/-- One turn: the symbol behind a pending backslash, or a run of symbols and the quote or
    the backslash that ends it. -/
def turn (quote : Char) (s : QuoteScan) : Turn :=
  if s.cursor.isAtEnd then .ended s.cursor
  else if s.pending then
    match s.cursor.read with
    | (.error cause, cursor) => .unreadable cause cursor
    | (.ok c, cursor) =>
      .again { cursor, value := s.value ++ pairValue quote c, pending := false }
  else
    let (run, cursor) := s.cursor.readWhile (.quotedBody quote)
    if cursor.isAtEnd then .ended cursor
    else
      match cursor.read with
      | (.error cause, cursor) => .unreadable cause cursor
      | (.ok c, cursor) =>
        if c == '\\' then .again { cursor, value := s.value ++ run, pending := true }
        else .closed (s.value ++ run) cursor

/-- **All that a turn can do**: reading the single symbol never fails, as the end of the
    text has been ruled out before. -/
inductive Turns (quote : Char) (s : QuoteScan) : Turn → Prop where
  | atEnd : s.cursor.rest = [] → Turns quote s (.ended s.cursor)
  | pair {c : Char} {behind : List Char} :
      s.pending = true → s.cursor.rest = c :: behind →
      Turns quote s (.again ⟨s.cursor.moveOver [c], s.value ++ pairValue quote c, false⟩)
  | body :
      s.pending = false → (∀ c ∈ s.cursor.rest, isQuotedBody quote c = true) →
      Turns quote s (.ended (s.cursor.moveOver s.cursor.rest))
  | backslash {run behind : List Char} :
      s.pending = false → (∀ c ∈ run, isQuotedBody quote c = true) →
      s.cursor.rest = run ++ '\\' :: behind →
      Turns quote s (.again ⟨s.cursor.moveOver (run ++ ['\\']), s.value ++ run, true⟩)
  | quote {run behind : List Char} :
      s.pending = false → (∀ c ∈ run, isQuotedBody quote c = true) →
      s.cursor.rest = run ++ quote :: behind →
      Turns quote s (.closed (s.value ++ run) (s.cursor.moveOver (run ++ [quote])))

end QuoteScan

theorem Cursor.exists_readWhile (r : Cursor) (cls : SymbolClass) :
    ∃ run behind, r.rest = run ++ behind ∧ (∀ c ∈ run, cls.contains c = true) ∧
      NoneNext cls.contains behind ∧ r.readWhile cls = (run, r.moveOver run) := by
  refine ⟨_, _, List.takeWhile_append_dropWhile.symm, ?_, noneNext_dropWhile cls.contains r.rest, rfl⟩
  exact fun c hc => List.all_eq_true.1 List.all_takeWhile c hc

namespace QuoteScan

variable {quote : Char} {s : QuoteScan}

theorem turns_turn (quote : Char) (s : QuoteScan) : s.Turns quote (s.turn quote) := by
  rw [turn]
  split
  next hend => exact .atEnd (Cursor.isAtEnd_iff.1 hend)
  next hend =>
    split
    next hpending =>
      obtain ⟨c, behind, hrest⟩ := List.exists_cons_of_ne_nil (mt Cursor.isAtEnd_iff.2 hend)
      rw [Cursor.read_of_rest hrest]
      exact .pair hpending hrest
    next hpending =>
      have hpending' : s.pending = false := by simpa using hpending
      obtain ⟨run, behind, hrest, hrun, hnext, hread⟩ := s.cursor.exists_readWhile (.quotedBody quote)
      have hmoved := Cursor.rest_moveOver hrest
      rw [hread]
      dsimp only
      cases behind with
      | nil =>
        rw [List.append_nil] at hrest
        rw [if_pos (Cursor.isAtEnd_iff.2 hmoved), ← hrest]
        exact .body hpending' (hrest ▸ hrun)
      | cons c behind =>
        have hleft : ¬ (s.cursor.moveOver run).isAtEnd = true := by simp [Cursor.isAtEnd_iff, hmoved]
        have hc : isQuotedBody quote c = false := hnext.of_cons
        simp only [isQuotedBody, Bool.not_eq_false', Bool.or_eq_true, beq_iff_eq] at hc
        rw [if_neg hleft, Cursor.read_of_rest hmoved, ← Cursor.moveOver_append]
        by_cases hbackslash : c = '\\'
        · subst hbackslash
          exact .backslash hpending' hrun hrest
        · obtain rfl : c = quote := hc.resolve_right hbackslash
          simp only [beq_iff_eq, if_neg hbackslash]
          exact .quote hpending' hrun hrest

/-- A turn that is not the last reads on. -/
theorem length_of_turn {next : QuoteScan} (h : s.turn quote = .again next) :
    next.cursor.rest.length < s.cursor.rest.length := by
  have hturns := turns_turn quote s
  rw [h] at hturns
  cases hturns with
  | @pair c behind _ hrest =>
    have hrest' : s.cursor.rest = [c] ++ behind := hrest
    rw [Cursor.rest_moveOver hrest', hrest', List.length_append]
    simp
  | @backslash run behind _ _ hrest =>
    have hrest' : s.cursor.rest = (run ++ ['\\']) ++ behind := by simpa using hrest
    rw [Cursor.rest_moveOver hrest', hrest', List.length_append]
    simp

/-- Turns until one is the last.  An argument that is not closed is an error from the
    marker, which stands at `start`, to where reading stopped. -/
def run (quote : Char) (name : String) (start : Position) (s : QuoteScan) :
    Except SyntaxError String × Cursor :=
  match _h : s.turn quote with
  | .again next => next.run quote name start
  | .closed value cursor => (.ok (String.ofList value), cursor)
  | .ended cursor =>
    (.error (.unterminatedQuotedArgument name (.between start cursor.position)), cursor)
  | .unreadable cause cursor => (.error (.unreadable cause), cursor)
termination_by s.cursor.rest.length
decreasing_by exact length_of_turn _h

/-! ### What the loop has read -/

/-- The backslash that is pending. -/
def held (s : QuoteScan) : List Char :=
  if s.pending then ['\\'] else []

theorem held_of_pending (h : s.pending = true) : s.held = ['\\'] :=
  if_pos h

theorem held_of_not_pending (h : s.pending = false) : s.held = [] := by
  simp [held, h]

theorem held_cases (s : QuoteScan) : s.held = [] ∨ s.held = ['\\'] := by
  cases h : s.pending with
  | false => exact .inl (held_of_not_pending h)
  | true => exact .inr (held_of_pending h)

/-- The state has read, from `r` on, a form of its value and what is pending. -/
def Reads (quote : Char) (r : Cursor) (s : QuoteScan) : Prop :=
  ∃ written, QuotedForm quote written s.value ∧
    r.rest = written ++ (s.held ++ s.cursor.rest) ∧ s.cursor = r.moveOver (written ++ s.held)

/-- What a turn comes to, said of all that has been read from `r` on. -/
inductive Turn.Reads (quote : Char) (r : Cursor) : Turn → Prop where
  | again {next : QuoteScan} : next.Reads quote r → Reads quote r (.again next)
  | closed {written value behind : List Char} :
      QuotedForm quote written value → r.rest = written ++ quote :: behind →
      Reads quote r (.closed value (r.moveOver (written ++ [quote])))
  | ended {written value final : List Char} :
      QuotedForm quote written value → final = [] ∨ final = ['\\'] → r.rest = written ++ final →
      Reads quote r (.ended (r.moveOver r.rest))

theorem quotedForm_pairValue (quote c : Char) : QuotedForm quote ['\\', c] (pairValue quote c) := by
  rw [pairValue]
  split
  next hc => exact .escaped (by simpa using hc) .empty
  next hc =>
    have hc' : c ≠ quote ∧ c ≠ '\\' := by simpa using hc
    exact .kept hc'.1 hc'.2 .empty

/-- **One turn** takes what has been read on by forms. -/
theorem Reads.turn {r : Cursor} (h : s.Reads quote r) : (s.turn quote).Reads quote r := by
  obtain ⟨written, hform, hrest, hcursor⟩ := h
  have hturns := turns_turn quote s
  generalize s.turn quote = turn at hturns
  cases hturns with
  | atEnd hend =>
    rw [hend, List.append_nil] at hrest
    rw [hcursor, ← hrest]
    exact .ended hform (held_cases s) hrest
  | @pair c behind hpending hnext =>
    have hrest' : (s.cursor.moveOver [c]).rest = behind := Cursor.rest_moveOver hnext
    rw [held_of_pending hpending] at hrest hcursor
    refine .again ⟨written ++ ['\\', c], hform.append (quotedForm_pairValue quote c), ?_, ?_⟩
    · simp [hrest, hrest', hnext, held]
    · rw [hcursor, ← Cursor.moveOver_append]
      simp [held]
  | body hpending hbody =>
    rw [held_of_not_pending hpending, List.nil_append] at hrest
    rw [held_of_not_pending hpending, List.append_nil] at hcursor
    have hmoved : s.cursor.moveOver s.cursor.rest = r.moveOver r.rest := by
      rw [hrest, Cursor.moveOver_append, ← hcursor]
    rw [hmoved]
    exact .ended (hform.append (quotedForm_run hbody)) (.inl rfl) (by simpa using hrest)
  | @backslash run behind hpending hrun hnext =>
    have hrest' : (s.cursor.moveOver (run ++ ['\\'])).rest = behind :=
      Cursor.rest_moveOver (by simpa using hnext)
    rw [held_of_not_pending hpending] at hrest hcursor
    refine .again ⟨written ++ run, hform.append (quotedForm_run hrun), ?_, ?_⟩
    · simp [hrest, hrest', hnext, held]
    · rw [hcursor, ← Cursor.moveOver_append]
      simp [held]
  | @quote run behind hpending hrun hnext =>
    rw [held_of_not_pending hpending] at hrest hcursor
    have hmoved : s.cursor.moveOver (run ++ [quote]) = r.moveOver (written ++ run ++ [quote]) := by
      rw [hcursor, ← Cursor.moveOver_append]
      simp
    have hrest' : r.rest = written ++ run ++ quote :: behind := by simp [hrest, hnext]
    rw [hmoved]
    exact .closed (hform.append (quotedForm_run hrun)) hrest'

/-- **All turns**: they end with the text, or with a quote. -/
theorem Reads.run {r : Cursor} (h : s.Reads quote r) (name : String) (start : Position) :
    (∃ written value behind, QuotedForm quote written value ∧
      r.rest = written ++ quote :: behind ∧
      s.run quote name start = (.ok (String.ofList value), r.moveOver (written ++ [quote]))) ∨
    ∃ written value final, QuotedForm quote written value ∧ (final = [] ∨ final = ['\\']) ∧
      r.rest = written ++ final ∧
      s.run quote name start =
        (.error (.unterminatedQuotedArgument name (.between start (r.moveOver r.rest).position)),
          r.moveOver r.rest) := by
  -- the state is the one that the induction is on, and what its turn reads goes with it
  have hturn := h.turn
  fun_induction QuoteScan.run quote name start s with
  | case1 s next heq ih =>
    rw [heq] at hturn
    cases hturn with
    | again hnext => exact ih hnext hnext.turn
  | case2 s value cursor heq =>
    rw [heq] at hturn
    cases hturn with
    | closed hform hrest => exact .inl ⟨_, _, _, hform, hrest, rfl⟩
  | case3 s cursor heq =>
    rw [heq] at hturn
    cases hturn with
    | ended hform hfinal hrest => exact .inr ⟨_, _, _, hform, hfinal, hrest, rfl⟩
  | case4 s cause cursor heq =>
    rw [heq] at hturn
    nomatch hturn

theorem reads_start (quote : Char) (r : Cursor) : Reads quote r { cursor := r } :=
  ⟨[], .empty, rfl, rfl⟩

end QuoteScan

/-- Reads a quoted argument from behind its opening quote. -/
def Cursor.readQuoted (r : Cursor) (quote : Char) (name : String) (start : Position) :
    Except SyntaxError String × Cursor :=
  QuoteScan.run quote name start { cursor := r }

/-- **The loop is the reader**: it stops where the reader does, and never for a read that
    fails. -/
theorem Cursor.readQuoted_eq {quote : Char} (hquote : isQuote quote = true) (name : String)
    (start : Position) (r : Cursor) :
    r.readQuoted quote name start =
      match StyleTemplate.readQuoted quote r.rest with
      | some (value, rest) => (.ok (String.ofList value), r.moveOver (consumed r.rest rest))
      | none =>
        (.error (.unterminatedQuotedArgument name (.between start (r.moveOver r.rest).position)),
          r.moveOver r.rest) := by
  rcases (QuoteScan.reads_start quote r).run name start with
    ⟨written, value, behind, hform, hrest, hrun⟩ | ⟨written, value, final, hform, hfinal, hrest, hrun⟩
  · have hread : StyleTemplate.readQuoted quote r.rest = some (value, behind) :=
      hrest ▸ readQuoted_of_form hquote hform behind
    have hconsumed : consumed r.rest behind = written ++ [quote] := by
      rw [hrest, List.append_cons, consumed_append_right]
    rw [hread]
    dsimp only
    rw [hconsumed]
    exact hrun
  · have hopen : StaysOpen quote r.rest :=
      hrest ▸ hform.staysOpen_append (ne_backslash_of_isQuote hquote) hfinal
    rw [readQuoted_of_staysOpen hquote hopen]
    exact hrun

theorem consumed_drop {text : List Char} {n : Nat} (h : n ≤ text.length) :
    consumed text (text.drop n) = text.take n := by
  rw [consumed, List.length_drop, Nat.sub_sub_self h]

/-- **A quoted argument ends at the first quote that closes.**  There is one exactly if
    reading succeeds; it then stops right behind that quote, with the text before it less
    the backslashes of its pairs.  Otherwise reading stops at the end of the text, with the
    error of an open quote and never one of the cursor.  A reader of the text on its own
    (`readArgument`) answers the same. -/
theorem readQuoted_ends {quote : Char} (hquote : isQuote quote = true) (name : String)
    (start : Position) (r : Cursor) :
    let text := r.rest
    let result := r.readQuoted quote name start
    ((∃ value, result.1 = .ok value) ↔ ∃ i, Closes quote text i) ∧
    (∀ i, ClosesFirst quote text i →
      let value := String.ofList (unescaped quote (text.take i))
      let cursor := r.moveOver (text.take (i + 1))
      result = (.ok value, cursor) ∧ cursor.rest = text.drop (i + 1) ∧
        readArgument (quote :: text) = .ok (value, cursor.rest)) ∧
    ((¬ ∃ i, Closes quote text i) →
      let cursor := r.moveOver text
      result = (.error (.unterminatedQuotedArgument name (.between start cursor.position)), cursor) ∧
        cursor.isAtEnd = true ∧ readArgument (quote :: text) = .error (.openQuote, [])) ∧
    ∀ cause, result.1 ≠ .error (.unreadable cause) := by
  intro text result
  have hresult : result = _ := Cursor.readQuoted_eq hquote name start r
  rw [hresult]
  refine ⟨?_, ?_, ?_, ?_⟩
  · constructor
    · contrapose!
      intro hopen value
      rw [readQuoted_of_staysOpen hquote hopen]
      simp
    · intro hcloses
      obtain ⟨i, hi⟩ := exists_closesFirst hcloses
      rw [readQuoted_of_closesFirst hquote hi]
      exact ⟨_, rfl⟩
  · intro i hi
    have hread := readQuoted_of_closesFirst hquote hi
    have hrest : (r.moveOver (text.take (i + 1))).rest = text.drop (i + 1) :=
      Cursor.rest_moveOver (List.take_append_drop (i + 1) text).symm
    refine ⟨?_, hrest, ?_⟩
    · rw [hread]
      dsimp only
      rw [consumed_drop hi.1.lt_length]
    · rw [readArgument_quote hquote, hread, hrest]
  · intro hnone
    have hread := readQuoted_of_staysOpen hquote (not_exists.1 hnone)
    have hrest : (r.moveOver text).rest = [] := Cursor.rest_moveOver (List.append_nil text).symm
    refine ⟨?_, Cursor.isAtEnd_iff.2 hrest, ?_⟩
    · rw [hread]
    · rw [readArgument_quote hquote, hread]
  · intro cause
    split <;> simp

/-- A quote behind three backslashes and one behind two, and then none that closes. -/
theorem readQuoted_ends_backslashes :
    let text := ['a', '\\', '\\', '\\', '"', '\\', 'n', '\\', '\\', '"', 'b', '\\', '"']
    let r := Cursor.ofText text
    let behind := r.moveOver (text.take 10)
    isQuote '"' = true ∧ ClosesFirst '"' text 9 ∧ behind.rest = ['b', '\\', '"'] ∧
      r.readQuoted '"' "f" {} = (.ok "a\\\"\\n\\", behind) ∧
      behind.readQuoted '"' "f" {} =
        (.error (.unterminatedQuotedArgument "f" ⟨0, 13, 0⟩), r.moveOver text) := by
  intro text r behind
  have hquote : isQuote '"' = true := by decide
  have hfirst : ClosesFirst '"' text 9 := by decide
  have hnone : ¬ ∃ i, Closes '"' behind.rest i := not_exists.2 (by decide : StaysOpen '"' behind.rest)
  obtain ⟨-, hclosed, -, -⟩ := readQuoted_ends hquote "f" {} r
  obtain ⟨-, -, hopen, -⟩ := readQuoted_ends hquote "f" {} behind
  exact ⟨hquote, hfirst, rfl, (hclosed 9 hfirst).1, (hopen hnone).1⟩

end StyleTemplate
