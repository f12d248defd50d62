/-
  **Quoting arguments.**

  Any text can be written as an argument: between two quotes, with a backslash before
  every backslash and every such quote in it.  Reading takes out exactly those backslashes
  (`quotedForm_escaped`), so each argument of a placeholder comes out as it was, whatever
  symbols it holds and whichever quote was chosen for it (`scanAll_callText`).
-/
import StyleTemplate.Proofs.Token.Locality

namespace StyleTemplate

/-! ### Writing arguments -/

/-- A text as it is written between two quotes. -/
def escaped (quote : Char) : List Char → List Char
  | [] => []
  | c :: text =>
    if c = quote ∨ c = '\\' then '\\' :: c :: escaped quote text else c :: escaped quote text

/-- An argument with the quotes it is put in and the white space around them. -/
structure QuotedArgument where
  value : String
  quote : Char := '"'
  before : List Char := []
  after : List Char := []
  isQuote_quote : isQuote quote = true := by decide
  blank_before : Blank before := by decide
  blank_after : Blank after := by decide

namespace QuotedArgument

def written (a : QuotedArgument) : List Char :=
  a.before ++ a.quote :: (escaped a.quote a.value.toList ++ a.quote :: a.after)

end QuotedArgument

/-- A placeholder with an argument list, which has the white space `inside` behind its
    opening parenthesis. -/
def callText (marker : Char) (name inside : List Char) (args : List QuotedArgument) :
    List Char :=
  marker :: (name ++ '(' ::
    (inside ++ ([','].intercalate (args.map QuotedArgument.written) ++ [')'])))

/-! ### Reading them -/

/-- What is written between quotes says the text that was to be written. -/
theorem quotedForm_escaped (quote : Char) (value : List Char) :
    QuotedForm quote (escaped quote value) value := by
  induction value with
  | nil => exact .empty
  | cons c value ih =>
    rw [escaped]
    by_cases hc : c = quote ∨ c = '\\'
    · rw [if_pos hc]
      exact .escaped hc ih
    · rw [if_neg hc]
      rw [not_or] at hc
      exact .symbol hc.1 hc.2 ih

theorem QuotedArgument.argumentForm (a : QuotedArgument) : ArgumentForm a.written a.value := by
  have hform := ArgumentForm.quoted a.blank_before a.isQuote_quote
    (quotedForm_escaped a.quote a.value.toList) a.blank_after
  rwa [String.ofList_toList] at hform

theorem argumentsForm_intercalate (a : QuotedArgument) (args : List QuotedArgument) :
    ArgumentsForm ([','].intercalate ((a :: args).map QuotedArgument.written))
      ((a :: args).map (·.value)) := by
  induction args generalizing a with
  | nil =>
    simp only [List.map_cons, List.map_nil, List.intercalate_singleton]
    exact .last a.argumentForm
  | cons b args ih =>
    simp only [List.map_cons, List.intercalate_cons_cons, List.append_assoc,
      List.singleton_append]
    exact .more a.argumentForm (ih b)

/-- An argument list is read as the arguments in it, and an empty one as none. -/
theorem parametersForm_written {inside : List Char} (hinside : Blank inside)
    (args : List QuotedArgument) (rest : List Char) :
    ParametersForm
      ('(' :: (inside ++ ([','].intercalate (args.map QuotedArgument.written) ++ [')'])))
      (args.map (·.value)) rest := by
  have hnothing : Blank [] := by decide
  cases args with
  | nil => exact .empty hnothing hinside
  | cons a args =>
    have hlist := (argumentsForm_intercalate a args).blank_append hinside
    rw [← List.append_assoc]
    exact .list hnothing hlist

/-- **Quoted arguments come back as they were.**  A name with an argument list of quoted
    texts is one token, from the first symbol to the last, and its arguments are those
    texts. -/
theorem scanAll_callText {marker : Char} {name : List Char} {parts : List (List Char)}
    (hname : NameForm name parts) (hmarker : marker ∉ name.head?) {inside : List Char}
    (hinside : Blank inside) (args : List QuotedArgument) :
    let text := callText marker name inside args
    scanAll marker text = .ok [
      { path := parts.map String.ofList
        args := args.map (·.value)
        suffix := none
        escape := false
        start := .after []
        stop := .after text
        raw := String.ofList text }] := by
  intro text
  have hnext : NoneNext isNameSymbol ('(' :: (inside ++
      ([','].intercalate (args.map QuotedArgument.written) ++ [')'])) ++ ([] ++ [])) :=
    .cons (by decide) _
  have hsuffix : SuffixForm [] none [] := .none (by simp [NoneNext]) (by simp [NoneNext])
  have hphrase := PhraseForm.named hname hmarker hnext
    (parametersForm_written hinside args ([] ++ [])) hsuffix
  rw [List.append_nil] at hphrase
  exact scanAll_phrase hphrase

/-- A backslash alone; both quotes, between single ones and with white space around; an
    empty argument; and one of symbols that have a meaning outside of quotes. -/
theorem scanAll_callText_mixed :
    let args : List QuotedArgument := [
      { value := "\\" },
      { value := "'\"", quote := '\'', before := [' '], after := ['\n'] },
      { value := "" },
      { value := "$,)" }]
    let text := ['$', 'f', '.', 'g', '(', ' ', '"', '\\', '\\', '"', ',', ' ', '\'', '\\', '\'', '"',
      '\'', '\n', ',', '"', '"', ',', '"', '$', ',', ')', '"', ')']
    NameForm ['f', '.', 'g'] [['f'], ['g']] ∧ callText '$' ['f', '.', 'g'] [' '] args = text ∧
      scanAll '$' text = .ok [
        ⟨⟨["f", "g"], ["\\", "'\"", "", "$,)"], none, false⟩, .after [], .after text,
          String.ofList text⟩] := by
  intro args text
  have hname : NameForm ['f', '.', 'g'] [['f'], ['g']] :=
    ⟨by simp, by simp, by simp; decide, rfl⟩
  have htext : callText '$' ['f', '.', 'g'] [' '] args = text := by
    simp [callText, args, QuotedArgument.written, escaped, text]
  refine ⟨hname, htext, ?_⟩
  have hscan := scanAll_callText hname (by simp : '$' ∉ _) (by decide : Blank [' ']) args
  rw [htext] at hscan
  exact hscan

end StyleTemplate
