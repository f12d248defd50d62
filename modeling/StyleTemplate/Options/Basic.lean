/-
  **Options of a substitution.**

  Which symbol starts a placeholder, what becomes of one that cannot be resolved,
  and how such placeholders are reported.  Every option has a default.
-/

namespace StyleTemplate

/-- What becomes of a placeholder that cannot be resolved. -/
inductive ErrorPolicy where
  /-- Report it, leave its text in place and go on. -/
  | report
  /-- Stop at the first one and return its error. -/
  | abort
deriving DecidableEq, Repr

/-- What is fixed for every call of a processor. -/
structure Options where
  /-- The symbol that starts a placeholder. -/
  marker : Char := '$'
  onError : ErrorPolicy := .report
  /-- The label of the text in diagnostics, usually a file name. -/
  filename : String := ""
  /-- Whether diagnostics are handed to the sink. -/
  printErrors : Bool := true
deriving DecidableEq, Repr

end StyleTemplate
