/-
  **A cursor is a text cut in two.**

  A cursor counts what it has read in three units and derives from one of the
  counts what is left.  Nothing of that shows: whatever is done with a cursor, it
  answers as a text cut in two does (`Zipper.Step`), from the rest of which
  operations take what they read.  The counts are the lengths of the part that has
  been read (`exists_run_performAll`), so that a stretch between two saved places is
  cut out where symbols start.
-/
import StyleTemplate.Proofs.Token.Grammar

namespace StyleTemplate

/-! ### What is done with a cursor -/

namespace Cursor

/-- An operation.  Saved places go by their numbers, in the order of saving. -/
inductive Operation where
  | read
  | peek
  | looksAt (cls : SymbolClass)
  | accept (cls : SymbolClass)
  | expect (cls : SymbolClass)
  | readWhile (cls : SymbolClass)
  | skipWhitespace
  | seek (cls : SymbolClass)
  | reset
  | save
  | restore (place : Nat)
  | slice (start stop : Nat)
  | sliceBetween (first second : Nat)
deriving DecidableEq, Repr

inductive Answer where
  | symbol (c : Char)
  | failure (error : ReadError)
  | symbol? (c : Option Char)
  | truth (b : Bool)
  | stretch (text : List Char)
  | place (p : Position)
  | done
  /-- There is no such saved place, or two of them come in the wrong order. -/
  | refused
deriving DecidableEq, Repr

/-- A cursor and the places saved so far. -/
structure Session where
  cursor : Cursor
  saved : List Position := []
deriving DecidableEq, Repr

namespace Session

def ofText (text : List Char) : Session where
  cursor := .ofText text

def perform (s : Session) : Operation → Answer × Session
  | .read =>
    match s.cursor.read with
    | (.ok c, cursor) => (.symbol c, { s with cursor })
    | (.error error, cursor) => (.failure error, { s with cursor })
  | .peek => (.symbol? s.cursor.peek?, s)
  | .looksAt cls => (.truth (s.cursor.looksAt cls), s)
  | .accept cls =>
    let (c?, cursor) := s.cursor.accept cls
    (.symbol? c?, { s with cursor })
  | .expect cls =>
    match s.cursor.expect cls with
    | (.ok c, cursor) => (.symbol c, { s with cursor })
    | (.error error, cursor) => (.failure error, { s with cursor })
  | .readWhile cls =>
    let (run, cursor) := s.cursor.readWhile cls
    (.stretch run, { s with cursor })
  | .skipWhitespace =>
    let (run, cursor) := s.cursor.skipWhitespace
    (.stretch run, { s with cursor })
  | .seek cls =>
    let (found, cursor) := s.cursor.seek cls
    (.truth found, { s with cursor })
  | .reset => (.done, { s with cursor := s.cursor.reset })
  | .save => (.place s.cursor.position, { s with saved := s.saved ++ [s.cursor.position] })
  | .restore place =>
    match s.saved[place]? with
    | some p => (.done, { s with cursor := s.cursor.restore p })
    | none => (.refused, s)
  | .slice start stop => (.stretch (s.cursor.slice start stop), s)
  | .sliceBetween first second =>
    match s.saved[first]?, s.saved[second]? with
    | some p, some q =>
      match s.cursor.sliceBetween? p q with
      | some text => (.stretch text, s)
      | none => (.refused, s)
    | _, _ => (.refused, s)

/-- Some operations one after another, with what each of them answers. -/
def performAll (s : Session) : List Operation → List Answer × Session
  | [] => ([], s)
  | op :: ops =>
    let (answer, s) := s.perform op
    let (answers, s) := s.performAll ops
    (answer :: answers, s)

end Session

end Cursor

/-! ### A text cut in two -/

open Cursor (Operation Answer Session)

/-- A text cut in two: what has been read, and what is still to be read. -/
structure Zipper (text : List Char) where
  before : List Char
  rest : List Char
  joined : before ++ rest = text

namespace Zipper

variable {text : List Char}

def start (text : List Char) : Zipper text where
  before := []
  rest := text
  joined := rfl

/-- The cut behind a front part of the rest. -/
def moved (z : Zipper text) (front behind : List Char) (h : z.rest = front ++ behind) :
    Zipper text where
  before := z.before ++ front
  rest := behind
  joined := by rw [List.append_assoc, ← h, z.joined]

/-- A text is cut in one place only, if the same is left. -/
theorem eq_of_rest {y z : Zipper text} (h : y.rest = z.rest) : y = z := by
  obtain ⟨before, rest, hy⟩ := y
  obtain ⟨before', rest', hz⟩ := z
  obtain rfl : rest = rest' := h
  obtain rfl : before = before' := List.append_cancel_right (hy.trans hz.symm)
  rfl

theorem eq_of_length {y z : Zipper text} (h : y.before.length = z.before.length) : y = z := by
  have hwhole : y.before ++ y.rest = z.before ++ z.rest := y.joined.trans z.joined.symm
  exact eq_of_rest (List.append_inj hwhole h).2

theorem before_of_rest {y z : Zipper text} {front : List Char} (h : y.rest = front ++ z.rest) :
    z.before = y.before ++ front := by
  rw [show z = y.moved front z.rest h from eq_of_rest rfl]
  rfl

/-- The saved places behind an operation. -/
def keep (z : Zipper text) (saved : List (Zipper text)) : Operation → List (Zipper text)
  | .save => saved ++ [z]
  | _ => saved

/-- `Step saved z op answer z'`: what an operation answers at the cut `z`, and the
    cut behind it.  What is read is taken off the rest, and a miss leaves the cut
    where it is. -/
inductive Step (saved : List (Zipper text)) (z : Zipper text) :
    Operation → Answer → Zipper text → Prop where
  | read {z' : Zipper text} {c : Char} :
      z.rest = [c] ++ z'.rest → Step saved z .read (.symbol c) z'
  | readNothing :
      z.rest = [] → Step saved z .read (.failure (.endOfInput (.after z.before))) z
  | peek : Step saved z .peek (.symbol? z.rest.head?) z
  | looksAt {cls : SymbolClass} {c : Char} :
      c ∈ z.rest.head? → cls.contains c = true → Step saved z (.looksAt cls) (.truth true) z
  | looksAtOther {cls : SymbolClass} :
      NoneNext cls.contains z.rest → Step saved z (.looksAt cls) (.truth false) z
  | accept {z' : Zipper text} {cls : SymbolClass} {c : Char} :
      z.rest = [c] ++ z'.rest → cls.contains c = true →
      Step saved z (.accept cls) (.symbol? (some c)) z'
  | acceptOther {cls : SymbolClass} :
      NoneNext cls.contains z.rest → Step saved z (.accept cls) (.symbol? none) z
  | expect {z' : Zipper text} {cls : SymbolClass} {c : Char} :
      z.rest = [c] ++ z'.rest → cls.contains c = true →
      Step saved z (.expect cls) (.symbol c) z'
  | expectOther {cls : SymbolClass} :
      NoneNext cls.contains z.rest →
      Step saved z (.expect cls)
        (.failure (.unexpectedInput cls.describe z.rest.head? (.after z.before))) z
  | readWhile {z' : Zipper text} {cls : SymbolClass} {run : List Char} :
      z.rest = run ++ z'.rest → (∀ c ∈ run, cls.contains c = true) →
      NoneNext cls.contains z'.rest → Step saved z (.readWhile cls) (.stretch run) z'
  | skipWhitespace {z' : Zipper text} {answer : Answer} :
      Step saved z (.readWhile .whitespace) answer z' → Step saved z .skipWhitespace answer z'
  | seek {z' : Zipper text} {cls : SymbolClass} {gap : List Char} {c : Char} :
      z.rest = gap ++ z'.rest → (∀ d ∈ gap, cls.contains d = false) → c ∈ z'.rest.head? →
      cls.contains c = true → Step saved z (.seek cls) (.truth true) z'
  | seekNothing {z' : Zipper text} {cls : SymbolClass} :
      (∀ d ∈ z.rest, cls.contains d = false) → z'.rest = [] →
      Step saved z (.seek cls) (.truth false) z'
  | reset : Step saved z .reset .done (start text)
  | save : Step saved z .save (.place (.after z.before)) z
  | restore {z' : Zipper text} {place : Nat} :
      saved[place]? = some z' → Step saved z (.restore place) .done z'
  | restoreNothing {place : Nat} :
      saved[place]? = none → Step saved z (.restore place) .refused z
  | slice {a b : Nat} {front stretch behind : List Char} :
      text = front ++ (stretch ++ behind) → front.length = min a (min b text.length) →
      (front ++ stretch).length = min b text.length →
      Step saved z (.slice a b) (.stretch stretch) z
  | sliceBetween {y y' : Zipper text} {first second : Nat} {answer : Answer} :
      saved[first]? = some y → saved[second]? = some y' → y.before.length ≤ y'.before.length →
      Step saved z (.slice y.before.length y'.before.length) answer z →
      Step saved z (.sliceBetween first second) answer z
  | sliceBetweenNothing {first second : Nat} :
      (∀ y y', saved[first]? = some y → saved[second]? = some y' →
        y'.before.length < y.before.length) →
      Step saved z (.sliceBetween first second) .refused z

/-- Steps one after another, from a cut with the cuts saved so far. -/
inductive Run : Zipper text → List (Zipper text) → List Operation → List Answer →
    Zipper text → List (Zipper text) → Prop where
  | nil {z : Zipper text} {saved : List (Zipper text)} : Run z saved [] [] z saved
  | cons {z z' z'' : Zipper text} {saved saved' : List (Zipper text)} {op : Operation}
      {ops : List Operation} {answer : Answer} {answers : List Answer} :
      Step saved z op answer z' → Run z' (z.keep saved op) ops answers z'' saved' →
      Run z saved (op :: ops) (answer :: answers) z'' saved'

/-! ### The cursor at a cut -/

def position (z : Zipper text) : Position :=
  .after z.before

def cursor (z : Zipper text) : Cursor where
  source := text
  position := z.position

def session (z : Zipper text) (saved : List (Zipper text)) : Session where
  cursor := z.cursor
  saved := saved.map position

theorem cursor_rest (z : Zipper text) : z.cursor.rest = z.rest := by
  have hdrop : text.drop z.before.length = z.rest := by
    have hleft : (z.before ++ z.rest).drop z.before.length = z.rest := List.drop_left
    rwa [z.joined] at hleft
  rw [Cursor.rest, cursor, position, Position.after_symbol, hdrop]

theorem cursor_peek? (z : Zipper text) : z.cursor.peek? = z.rest.head? := by
  rw [Cursor.peek?, cursor_rest]

theorem cursor_moveOver {z z' : Zipper text} {front : List Char} (h : z.rest = front ++ z'.rest) :
    z.cursor.moveOver front = z'.cursor := by
  rw [cursor, cursor, position, position, before_of_rest h, Position.after_append]
  rfl

theorem position_injective {y z : Zipper text} (h : y.position = z.position) : y = z := by
  have hsymbol := congrArg Position.symbol h
  rw [position, position, Position.after_symbol, Position.after_symbol] at hsymbol
  exact eq_of_length hsymbol

/-- A text up to a cut is what has been read there. -/
theorem take_before (z : Zipper text) : text.take z.before.length = z.before := by
  have htake : (z.before ++ z.rest).take z.before.length = z.before := List.take_left
  rwa [z.joined] at htake

/-- What stands between two cuts. -/
theorem exists_between {y y' : Zipper text} (h : y.before.length ≤ y'.before.length) :
    ∃ stretch, y'.before = y.before ++ stretch ∧ text = y.before ++ (stretch ++ y'.rest) := by
  have hy : y.before <+: text := ⟨y.rest, y.joined⟩
  have hy' : y'.before <+: text := ⟨y'.rest, y'.joined⟩
  obtain ⟨stretch, hstretch⟩ := List.prefix_of_prefix_length_le hy hy' h
  refine ⟨stretch, hstretch.symm, ?_⟩
  rw [← List.append_assoc, hstretch, y'.joined]

/-! ### Reading at a cut -/

section Reading

variable {z z' : Zipper text} {cls : SymbolClass}

theorem cursor_looksAt {c : Char} (hc : c ∈ z.rest.head?) (hcls : cls.contains c = true) :
    z.cursor.looksAt cls = true := by
  rw [Cursor.looksAt, cursor_peek?, Option.mem_def.1 hc]
  exact hcls

theorem cursor_looksAt_of_noneNext (h : NoneNext cls.contains z.rest) :
    z.cursor.looksAt cls = false := by
  rw [Cursor.looksAt, cursor_peek?, Option.any_eq_false]
  intro c hc
  simp [h c hc]

theorem cursor_accept {c : Char} (h : z.rest = [c] ++ z'.rest) (hc : cls.contains c = true) :
    z.cursor.accept cls = (some c, z'.cursor) := by
  have hhead : z.rest.head?.filter cls.contains = some c := by simp [h, hc]
  simp only [Cursor.accept, cursor_peek?, hhead, cursor_moveOver h]

theorem cursor_accept_of_noneNext (h : NoneNext cls.contains z.rest) :
    z.cursor.accept cls = (none, z.cursor) := by
  have hhead : z.rest.head?.filter cls.contains = none := by
    rw [Option.filter_eq_none_iff]
    intro c hc
    simp [h c hc]
  simp only [Cursor.accept, cursor_peek?, hhead]

theorem cursor_readWhile {run : List Char} (h : z.rest = run ++ z'.rest)
    (hrun : ∀ c ∈ run, cls.contains c = true) (hnext : NoneNext cls.contains z'.rest) :
    z.cursor.readWhile cls = (run, z'.cursor) := by
  rw [Cursor.readWhile, cursor_rest, h, takeWhile_append_of_noneNext hrun hnext, cursor_moveOver h]

theorem cursor_seek {gap : List Char} (h : z.rest = gap ++ z'.rest)
    (hgap : ∀ d ∈ gap, cls.contains d = false) (hnext : ∀ c ∈ z'.rest.head?, cls.contains c = true) :
    z.cursor.seek cls = (!z'.rest.isEmpty, z'.cursor) := by
  have hgap' : ∀ d ∈ gap, (!cls.contains d) = true := fun d hd => by simp [hgap d hd]
  have hnext' : NoneNext (fun d => !cls.contains d) z'.rest := fun d hd => by simp [hnext d hd]
  rw [Cursor.seek, cursor_rest, h, takeWhile_append_of_noneNext hgap' hnext', cursor_moveOver h,
    Cursor.isAtEnd, cursor_rest]

end Reading

/-! ### Pieces of the text -/

/-- Between two places that come in order, a cursor cuts out what stands between the
    cuts. -/
theorem sliceBetween?_of_le (z : Zipper text) {y y' : Zipper text}
    (h : y.before.length ≤ y'.before.length) :
    z.cursor.sliceBetween? y.position y'.position =
      some (z.cursor.slice y.before.length y'.before.length) := by
  obtain ⟨stretch, hbefore, htext⟩ := exists_between h
  have hcut := cutBytes?_append y.before stretch y'.rest
  rw [← htext, ← utf8Length_append, ← hbefore] at hcut
  have hslice : z.cursor.slice y.before.length y'.before.length = stretch := by
    rw [Cursor.slice, cursor, take_before, hbefore, List.drop_left]
  rw [hslice, Cursor.sliceBetween?, position, position, Position.after_byte, Position.after_byte]
  exact hcut

/-- Two places in the wrong order have nothing between them. -/
theorem sliceBetween?_of_lt (z : Zipper text) {y y' : Zipper text}
    (h : y'.before.length < y.before.length) :
    z.cursor.sliceBetween? y.position y'.position = none := by
  obtain ⟨stretch, hbefore, _⟩ := exists_between (Nat.le_of_lt h)
  have hbytes : utf8Length y'.before < utf8Length y.before := by
    cases stretch with
    | nil => simp [hbefore] at h
    | cons c stretch =>
      have hpos := c.utf8Size_pos
      rw [hbefore, utf8Length_append, utf8Length_cons]
      omega
  rw [Cursor.sliceBetween?, position, position, Position.after_byte, Position.after_byte, cutBytes?,
    if_neg (by omega)]

theorem slice_eq (z : Zipper text) {a b : Nat} {front stretch behind : List Char}
    (htext : text = front ++ (stretch ++ behind))
    (hfront : front.length = min a (min b text.length))
    (hstretch : (front ++ stretch).length = min b text.length) :
    z.cursor.slice a b = stretch := by
  have htake : text.take b = front ++ stretch := by
    have hleft : (front ++ stretch ++ behind).take (front ++ stretch).length = front ++ stretch :=
      List.take_left
    rwa [List.append_assoc, ← htext, hstretch, ← List.take_eq_take_min] at hleft
  rw [Cursor.slice, cursor, htake]
  -- the stretch is empty where it starts at the end of what is taken
  by_cases ha : a ≤ front.length
  · obtain rfl : a = front.length := by omega
    exact List.drop_left
  · have hempty : stretch = [] := by
      apply List.eq_nil_of_length_eq_zero
      rw [List.length_append] at hstretch
      omega
    rw [hempty, List.append_nil, List.drop_eq_nil_of_le (by omega)]

/-! ### One operation -/

/-- **A cursor answers as the text cut in two does.** -/
theorem Step.perform_eq {saved : List (Zipper text)} {z z' : Zipper text} {op : Operation}
    {answer : Answer} (h : Step saved z op answer z') :
    (z.session saved).perform op = (answer, z'.session (z.keep saved op)) := by
  induction h with
  | read h =>
    simp only [session, Session.perform, Cursor.read, cursor_peek?, h, List.singleton_append,
      List.head?_cons, cursor_moveOver h, keep]
  | readNothing h =>
    simp only [session, Session.perform, Cursor.read, cursor_peek?, h, List.head?_nil, keep]
    rfl
  | peek => simp only [session, Session.perform, cursor_peek?, keep]
  | looksAt hc hcls => simp only [session, Session.perform, cursor_looksAt hc hcls, keep]
  | looksAtOther hnext =>
    simp only [session, Session.perform, cursor_looksAt_of_noneNext hnext, keep]
  | accept h hc => simp only [session, Session.perform, cursor_accept h hc, keep]
  | acceptOther hnext =>
    simp only [session, Session.perform, cursor_accept_of_noneNext hnext, keep]
  | expect h hc => simp only [session, Session.perform, Cursor.expect, cursor_accept h hc, keep]
  | expectOther hnext =>
    simp only [session, Session.perform, Cursor.expect, cursor_accept_of_noneNext hnext,
      cursor_peek?, keep]
    rfl
  | readWhile h hrun hnext =>
    simp only [session, Session.perform, cursor_readWhile h hrun hnext, keep]
  | skipWhitespace _ ih => exact ih
  | @seek z' cls gap c h hgap hc hcls =>
    have hnext : ∀ d ∈ z'.rest.head?, cls.contains d = true := by
      intro d hd
      rwa [Option.mem_unique hd hc]
    have hleft : z'.rest.isEmpty = false := by
      cases hrest : z'.rest with
      | nil => simp [hrest] at hc
      | cons => rfl
    simp only [session, Session.perform, cursor_seek h hgap hnext, hleft, Bool.not_false, keep]
  | @seekNothing z' cls hall hrest =>
    have h : z.rest = z.rest ++ z'.rest := by rw [hrest, List.append_nil]
    have hnext : ∀ d ∈ z'.rest.head?, cls.contains d = true := by simp [hrest]
    simp only [session, Session.perform, cursor_seek h hall hnext, hrest, List.isEmpty_nil,
      Bool.not_true, keep]
  | reset => rfl
  | save =>
    simp only [session, Session.perform, keep, List.map_append, List.map_singleton]
    rfl
  | @restore z' place hplace =>
    have hsaved : (saved.map position)[place]? = some z'.position := by simp [hplace]
    simp only [session, Session.perform, hsaved, keep]
    rfl
  | @restoreNothing place hplace =>
    have hsaved : (saved.map position)[place]? = none := by simpa using hplace
    simp only [session, Session.perform, hsaved, keep]
  | slice htext hfront hstretch =>
    simp only [session, Session.perform, slice_eq z htext hfront hstretch, keep]
  | @sliceBetween y y' first second answer hfirst hsecond hle _ ih =>
    have hfirst' : (saved.map position)[first]? = some y.position := by simp [hfirst]
    have hsecond' : (saved.map position)[second]? = some y'.position := by simp [hsecond]
    simp only [session, Session.perform, hfirst', hsecond', sliceBetween?_of_le z hle]
    exact ih
  | @sliceBetweenNothing first second hlt =>
    simp only [session, Session.perform, List.getElem?_map, keep]
    cases hfirst : saved[first]? with
    | none => rfl
    | some y =>
      cases hsecond : saved[second]? with
      | none => rfl
      | some y' => simp only [Option.map_some, sliceBetween?_of_lt z (hlt y y' hfirst hsecond)]

/-- The next symbol is of a class, or there is none of it. -/
theorem exists_next_or_noneNext (z : Zipper text) (cls : SymbolClass) :
    (∃ (c : Char) (z' : Zipper text), z.rest = [c] ++ z'.rest ∧ cls.contains c = true) ∨
      NoneNext cls.contains z.rest := by
  cases h : z.rest with
  | nil => exact .inr (by simp [NoneNext])
  | cons c behind =>
    cases hc : cls.contains c with
    | true => exact .inl ⟨c, z.moved [c] behind h, rfl, hc⟩
    | false => exact .inr (.cons hc behind)

/-- Every operation has an answer. -/
theorem exists_step (saved : List (Zipper text)) (z : Zipper text) (op : Operation) :
    ∃ answer z', Step saved z op answer z' := by
  have hrun : ∀ cls : SymbolClass, ∃ answer z', Step saved z (.readWhile cls) answer z' := by
    intro cls
    have h := (List.takeWhile_append_dropWhile (p := cls.contains) (l := z.rest)).symm
    exact ⟨_, z.moved _ _ h, .readWhile h (List.all_eq_true.1 List.all_takeWhile)
      (noneNext_dropWhile cls.contains z.rest)⟩
  have hslice : ∀ a b, ∃ stretch, Step saved z (.slice a b) (.stretch stretch) z := by
    intro a b
    have hjoined : text = (text.take b).take a ++ ((text.take b).drop a ++ text.drop b) := by
      rw [← List.append_assoc, List.take_append_drop, List.take_append_drop]
    refine ⟨(text.take b).drop a, .slice hjoined ?_ ?_⟩
    · rw [List.length_take, List.length_take]
    · rw [List.take_append_drop, List.length_take]
  cases op with
  | read =>
    cases hrest : z.rest with
    | nil => exact ⟨_, _, .readNothing hrest⟩
    | cons c behind => exact ⟨_, z.moved [c] behind hrest, .read hrest⟩
  | peek => exact ⟨_, _, .peek⟩
  | looksAt cls =>
    rcases z.exists_next_or_noneNext cls with ⟨c, z', h, hc⟩ | hnext
    · exact ⟨_, _, .looksAt (by simp [h]) hc⟩
    · exact ⟨_, _, .looksAtOther hnext⟩
  | accept cls =>
    rcases z.exists_next_or_noneNext cls with ⟨c, z', h, hc⟩ | hnext
    · exact ⟨_, _, .accept h hc⟩
    · exact ⟨_, _, .acceptOther hnext⟩
  | expect cls =>
    rcases z.exists_next_or_noneNext cls with ⟨c, z', h, hc⟩ | hnext
    · exact ⟨_, _, .expect h hc⟩
    · exact ⟨_, _, .expectOther hnext⟩
  | readWhile cls => exact hrun cls
  | skipWhitespace =>
    obtain ⟨answer, z', h⟩ := hrun .whitespace
    exact ⟨answer, z', .skipWhitespace h⟩
  | seek cls =>
    have h := (List.takeWhile_append_dropWhile (p := (!cls.contains ·)) (l := z.rest)).symm
    have hgap : ∀ d ∈ z.rest.takeWhile (!cls.contains ·), cls.contains d = false := by
      intro d hd
      simpa using List.all_eq_true.1 List.all_takeWhile d hd
    have hnext := noneNext_dropWhile (!cls.contains ·) z.rest
    cases hrest : z.rest.dropWhile (!cls.contains ·) with
    | nil =>
      rw [hrest, List.append_nil] at h
      exact ⟨_, z.moved z.rest [] (by simp), .seekNothing (h ▸ hgap) rfl⟩
    | cons c behind =>
      rw [hrest] at hnext
      have hc : cls.contains c = true := by simpa using hnext.of_cons
      exact ⟨_, z.moved _ _ h, .seek h hgap (Option.mem_def.2 (congrArg List.head? hrest)) hc⟩
  | reset => exact ⟨_, _, .reset⟩
  | save => exact ⟨_, _, .save⟩
  | restore place =>
    cases hplace : saved[place]? with
    | none => exact ⟨_, _, .restoreNothing hplace⟩
    | some z' => exact ⟨_, _, .restore hplace⟩
  | slice a b =>
    obtain ⟨stretch, h⟩ := hslice a b
    exact ⟨_, _, h⟩
  | sliceBetween first second =>
    cases hfirst : saved[first]? with
    | none => exact ⟨_, _, .sliceBetweenNothing (by simp [hfirst])⟩
    | some y =>
      cases hsecond : saved[second]? with
      | none => exact ⟨_, _, .sliceBetweenNothing (by simp [hsecond])⟩
      | some y' =>
        by_cases hle : y.before.length ≤ y'.before.length
        · obtain ⟨stretch, h⟩ := hslice y.before.length y'.before.length
          exact ⟨_, _, .sliceBetween hfirst hsecond hle h⟩
        · refine ⟨_, _, .sliceBetweenNothing ?_⟩
          intro x x' hx hx'
          obtain rfl : y = x := Option.some.inj (hfirst.symm.trans hx)
          obtain rfl : y' = x' := Option.some.inj (hsecond.symm.trans hx')
          omega

/-! ### Any number of operations -/

theorem session_injective {z z' : Zipper text} {saved saved' : List (Zipper text)}
    (h : z.session saved = z'.session saved') : z = z' ∧ saved = saved' := by
  have hcursor : z.cursor = z'.cursor := congrArg Session.cursor h
  have hsaved : saved.map position = saved'.map position := congrArg Session.saved h
  exact ⟨position_injective (congrArg Cursor.position hcursor),
    List.map_injective_iff.2 (fun _ _ => position_injective) hsaved⟩

theorem Run.performAll_eq {z z' : Zipper text} {saved saved' : List (Zipper text)}
    {ops : List Operation} {answers : List Answer} (h : Run z saved ops answers z' saved') :
    (z.session saved).performAll ops = (answers, z'.session saved') := by
  induction h with
  | nil => rfl
  | cons hstep _ ih => simp only [Session.performAll, hstep.perform_eq, ih]

theorem exists_run (z : Zipper text) (saved : List (Zipper text)) (ops : List Operation) :
    ∃ answers z' saved', Run z saved ops answers z' saved' := by
  induction ops generalizing z saved with
  | nil => exact ⟨[], z, saved, .nil⟩
  | cons op ops ih =>
    obtain ⟨answer, z', hstep⟩ := exists_step saved z op
    obtain ⟨answers, z'', saved', hrun⟩ := ih z' (z.keep saved op)
    exact ⟨answer :: answers, z'', saved', .cons hstep hrun⟩

/-- **Whatever is done with a cursor, it answers as the text cut in two does**, and
    nothing else can be answered there.  Its place is within the text, and the three
    counts of it are the lengths of what has been read. -/
theorem exists_run_performAll (text : List Char) (ops : List Operation) :
    ∃ answers cursor z saved,
      (Session.ofText text).performAll ops = (answers, ⟨cursor, saved.map position⟩) ∧
      Run (start text) [] ops answers z saved ∧
      (∀ answers' z' saved', Run (start text) [] ops answers' z' saved' →
        answers' = answers ∧ z' = z ∧ saved' = saved) ∧
      cursor.source = text ∧ cursor.rest = z.rest ∧
      text.take cursor.position.symbol = z.before ∧ cursor.position.symbol ≤ text.length ∧
      cursor.position.unit16 = utf16Length (text.take cursor.position.symbol) ∧
      cursor.position.byte = utf8Length (text.take cursor.position.symbol) := by
  obtain ⟨answers, z, saved, hrun⟩ := exists_run (start text) [] ops
  have htake : text.take z.cursor.position.symbol = z.before := by
    rw [cursor, position, Position.after_symbol, take_before]
  refine ⟨answers, z.cursor, z, saved, hrun.performAll_eq, hrun, ?_, rfl, z.cursor_rest, htake,
    ?_, ?_, ?_⟩
  · intro answers' z' saved' hrun'
    have hboth := hrun'.performAll_eq.symm.trans hrun.performAll_eq
    have hsession := session_injective (congrArg Prod.snd hboth)
    exact ⟨congrArg Prod.fst hboth, hsession⟩
  · have hlength := congrArg List.length z.joined
    rw [List.length_append] at hlength
    rw [cursor, position, Position.after_symbol]
    omega
  · rw [htake, cursor, position, Position.after_unit16]
  · rw [htake, cursor, position, Position.after_byte]

/-- The places around a symbol of two units and four bytes, and what stands between
    them. -/
example :
    ((Session.ofText ['a', '🌀', 'b']).performAll
        [.read, .save, .seek (.exactly 'b'), .save, .sliceBetween 0 1, .sliceBetween 1 0]).1 =
      [.symbol 'a', .place ⟨1, 1, 1⟩, .truth true, .place ⟨2, 3, 5⟩, .stretch ['🌀'], .refused] := by
  decide

end Zipper

end StyleTemplate
