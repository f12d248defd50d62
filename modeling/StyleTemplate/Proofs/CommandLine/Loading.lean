/-
  **What a run waits for.**

  A run starts once the options, all sources and the input are there (`Ready`).  It looks
  for them in this order, and if it does not start, the cause is the first of them that
  is missing (`FailsToLoad`), whatever there is to say of the others.
-/
import Mathlib.Data.List.Forall2
import StyleTemplate.CommandLine.Run

namespace StyleTemplate

/-! ### Files -/

theorem Options.ofFile_eq_error_iff {read : FileReader} {path : String} {cause : OptionsError} :
    ofFile read path = .error cause ↔
      (∃ e, read.text path = .error e ∧ cause = .unreadable e) ∨
      ∃ document, read.text path = .ok document ∧ Options.ofToml? document = none ∧
        cause = .malformed document := by
  rw [ofFile]
  cases read.text path with
  | error e => simp [eq_comm]
  | ok document => cases h : Options.ofToml? document <;> simp [h, eq_comm]

theorem Source.error_of_ofToml {document : List Char} {cause : SourceError}
    (h : Source.ofToml document = .error cause) : cause = .malformed document := by
  rw [ofToml] at h
  split at h
  · nomatch h
  · exact (Except.error.inj h).symm

theorem Source.ofFile_eq_error_iff {read : FileReader} {path : String} {cause : SourceError} :
    ofFile read path = .error cause ↔
      (∃ e, read.text path = .error e ∧ cause = .unreadable e) ∨
      ∃ document, read.text path = .ok document ∧
        Source.ofToml document = .error (.malformed document) ∧ cause = .malformed document := by
  rw [ofFile]
  cases read.text path with
  | error e => simp [eq_comm]
  | ok document =>
    cases h : Source.ofToml document with
    | ok source => simp [h]
    | error e =>
      obtain rfl := error_of_ofToml h
      simp [h, eq_comm]

namespace CommandLine

/-! ### One step after another -/

section Steps

variable {α β ε ε' : Type}

theorem mapError_eq_ok_iff {f : ε → ε'} {x : Except ε α} {a : α} :
    x.mapError f = .ok a ↔ x = .ok a := by
  cases x <;> simp [Except.mapError]

theorem mapError_eq_error_iff {f : ε → ε'} {x : Except ε α} {error : ε'} :
    x.mapError f = .error error ↔ ∃ cause, x = .error cause ∧ error = f cause := by
  cases x <;> simp [Except.mapError, eq_comm]

theorem bind_eq_ok_iff {x : Except ε α} {f : α → Except ε β} {b : β} :
    x >>= f = .ok b ↔ ∃ a, x = .ok a ∧ f a = .ok b := by
  cases x <;> simp [bind, Except.bind]

theorem bind_eq_error_iff {x : Except ε α} {f : α → Except ε β} {error : ε} :
    x >>= f = .error error ↔ x = .error error ∨ ∃ a, x = .ok a ∧ f a = .error error := by
  cases x <;> simp [bind, Except.bind]

theorem mapM_eq_ok_iff {f : α → Except ε β} {xs : List α} {ys : List β} :
    xs.mapM f = .ok ys ↔ List.Forall₂ (fun x y => f x = .ok y) xs ys := by
  induction xs generalizing ys with
  | nil => simp [pure, Except.pure, eq_comm]
  | cons x xs ih =>
    rw [List.mapM_cons, bind_eq_ok_iff, List.forall₂_cons_left_iff]
    refine exists_congr fun y => ?_
    constructor
    · rintro ⟨hy, hmore⟩
      obtain ⟨more, hxs, hys⟩ := bind_eq_ok_iff.1 hmore
      exact ⟨more, hy, ih.1 hxs, (Except.ok.inj hys).symm⟩
    · rintro ⟨more, hy, hmore, rfl⟩
      exact ⟨hy, bind_eq_ok_iff.2 ⟨more, ih.2 hmore, rfl⟩⟩

/-- Of several steps that do not all succeed, the first failure counts. -/
theorem mapM_eq_error_iff {f : α → Except ε β} {xs : List α} {error : ε} :
    xs.mapM f = .error error ↔ ∃ front x behind ys, xs = front ++ x :: behind ∧
      List.Forall₂ (fun x y => f x = .ok y) front ys ∧ f x = .error error := by
  constructor
  · intro h
    induction xs with
    | nil => nomatch h
    | cons x xs ih =>
      rw [List.mapM_cons, bind_eq_error_iff] at h
      rcases h with hx | ⟨y, hy, hmore⟩
      · exact ⟨[], x, xs, [], rfl, .nil, hx⟩
      · rcases bind_eq_error_iff.1 hmore with hxs | ⟨_, _, hpure⟩
        · obtain ⟨front, x', behind, ys, rfl, hfront, hx'⟩ := ih hxs
          exact ⟨x :: front, x', behind, y :: ys, rfl, .cons hy hfront, hx'⟩
        · nomatch hpure
  · rintro ⟨front, x, behind, ys, rfl, hfront, hx⟩
    rw [List.mapM_append, mapM_eq_ok_iff.2 hfront, List.mapM_cons, hx]
    rfl

end Steps

namespace Invocation

variable {wording : Wording} {i : Invocation} {read : FileReader} {stdin : ByteArray}

/-! ### What there has to be -/

/-- The options before the command line has its say: those of the file, if there is one. -/
inductive StartsFrom (i : Invocation) (read : FileReader) : Options → Prop where
  | default : i.config? = none → StartsFrom i read {}
  | file {path : String} {loaded : Options} : i.config? = some path →
      Options.ofFile read path = .ok loaded → StartsFrom i read loaded

/-- The options that a run has. -/
def Configured (i : Invocation) (read : FileReader) (options : Options) : Prop :=
  ∃ loaded, i.StartsFrom read loaded ∧ options = {
    marker := i.marker?.getD loaded.marker
    onError := if i.abort then .abort else loaded.onError
    filename := i.filename?.getD (i.input?.getD "<stdin>")
    printErrors := loaded.printErrors }

theorem Configured.label_eq {options : Options} (h : i.Configured read options) :
    i.label = options.filename := by
  obtain ⟨loaded, _, rfl⟩ := h
  rfl

/-- The sources at some paths, one at each. -/
def SourcesAt (read : FileReader) : List String → List Source → Prop :=
  List.Forall₂ fun path source => Source.ofFile read path = .ok source

/-- The text that a run works on. -/
inductive TakesIn (i : Invocation) (read : FileReader) (stdin : ByteArray) :
    List Char → Prop where
  | file {path : String} {text : List Char} : i.input? = some path →
      read.text path = .ok text → TakesIn i read stdin text
  | standardInput {text : List Char} : i.input? = none → decodeText stdin = .ok text →
      TakesIn i read stdin text

structure Ready (i : Invocation) (read : FileReader) (stdin : ByteArray) (options : Options)
    (sources : List Source) (text : List Char) : Prop where
  options : i.Configured read options
  sources : SourcesAt read i.sources sources
  text : i.TakesIn read stdin text

/-- The first thing that is missing, with the error that is written for it.  A file is
    missing that cannot be read or holds no text, and a document that is malformed. -/
inductive FailsToLoad (wording : Wording) (i : Invocation) (read : FileReader)
    (stdin : ByteArray) : String → Prop where
  | configUnreadable {path : String} {cause : FileError} : i.config? = some path →
      read.text path = .error cause →
      FailsToLoad wording i read stdin s!"Error loading config '{path}': {cause.message}\n"
  | configMalformed {path : String} {document : List Char} : i.config? = some path →
      read.text path = .ok document → Options.ofToml? document = none →
      FailsToLoad wording i read stdin
        s!"Error loading config '{path}': {wording.optionsFault document}\n"
  | sourceUnreadable {options : Options} {front : List String} {path : String}
      {behind : List String} {sources : List Source} {cause : FileError} :
      i.Configured read options → i.sources = front ++ path :: behind →
      SourcesAt read front sources → read.text path = .error cause →
      FailsToLoad wording i read stdin
        (s!"Error loading value source '{path}': " ++
          s!"Failed to read value source file: {cause.message}" ++ "\n")
  | sourceMalformed {options : Options} {front : List String} {path : String}
      {behind : List String} {sources : List Source} {document : List Char} :
      i.Configured read options → i.sources = front ++ path :: behind →
      SourcesAt read front sources → read.text path = .ok document →
      Source.ofToml document = .error (.malformed document) →
      FailsToLoad wording i read stdin
        (s!"Error loading value source '{path}': " ++
          s!"Failed to parse value source TOML: {wording.sourceFault document}" ++ "\n")
  | input {options : Options} {sources : List Source} {path : String} {cause : FileError} :
      i.Configured read options → SourcesAt read i.sources sources → i.input? = some path →
      read.text path = .error cause →
      FailsToLoad wording i read stdin s!"Error reading file '{path}': {cause.message}\n"
  | standardInput {options : Options} {sources : List Source} {cause : FileError} :
      i.Configured read options → SourcesAt read i.sources sources → i.input? = none →
      decodeText stdin = .error cause →
      FailsToLoad wording i read stdin s!"Error reading from stdin: {cause.message}\n"

/-! ### Loading -/

theorem options_eq_ok_iff {options : Options} :
    i.options read = .ok options ↔ i.Configured read options := by
  rw [Invocation.options]
  constructor
  · intro h
    cases hconfig : i.config? with
    | none =>
      rw [hconfig] at h
      exact ⟨{}, .default hconfig, (Except.ok.inj h).symm⟩
    | some path =>
      rw [hconfig] at h
      obtain ⟨loaded, hfile, hoptions⟩ := bind_eq_ok_iff.1 h
      exact ⟨loaded, .file hconfig (mapError_eq_ok_iff.1 hfile), (Except.ok.inj hoptions).symm⟩
  · rintro ⟨loaded, hloaded, rfl⟩
    cases hloaded with
    | default hconfig =>
      rw [hconfig]
      rfl
    | file hconfig hfile =>
      rw [hconfig]
      exact bind_eq_ok_iff.2 ⟨loaded, mapError_eq_ok_iff.2 hfile, rfl⟩

theorem exists_of_options_eq_error {error : LoadError} (h : i.options read = .error error) :
    ∃ path cause, i.config? = some path ∧ Options.ofFile read path = .error cause ∧
      error = .config path cause := by
  rw [Invocation.options] at h
  cases hconfig : i.config? with
  | none =>
    rw [hconfig] at h
    nomatch h
  | some path =>
    rw [hconfig] at h
    rcases bind_eq_error_iff.1 h with hfile | ⟨_, _, hpure⟩
    · obtain ⟨cause, hcause, rfl⟩ := mapError_eq_error_iff.1 hfile
      exact ⟨path, cause, rfl, hcause, rfl⟩
    · nomatch hpure

theorem loadSources_eq_ok_iff {paths : List String} {sources : List Source} :
    loadSources read paths = .ok sources ↔ SourcesAt read paths sources := by
  simp only [loadSources, mapM_eq_ok_iff, mapError_eq_ok_iff, SourcesAt]

theorem loadSources_eq_error_iff {paths : List String} {error : LoadError} :
    loadSources read paths = .error error ↔ ∃ front path behind sources cause,
      paths = front ++ path :: behind ∧ SourcesAt read front sources ∧
        Source.ofFile read path = .error cause ∧ error = .source path cause := by
  simp only [loadSources, mapM_eq_error_iff, mapError_eq_ok_iff, mapError_eq_error_iff, SourcesAt,
    exists_and_left]

theorem inputText_eq_ok_iff {text : List Char} :
    i.inputText read stdin = .ok text ↔ i.TakesIn read stdin text := by
  rw [inputText]
  constructor
  · intro h
    cases hinput : i.input? with
    | none =>
      rw [hinput] at h
      exact .standardInput hinput (mapError_eq_ok_iff.1 h)
    | some path =>
      rw [hinput] at h
      exact .file hinput (mapError_eq_ok_iff.1 h)
  · intro h
    cases h with
    | file hinput hfile =>
      rw [hinput]
      exact mapError_eq_ok_iff.2 hfile
    | standardInput hinput hdecode =>
      rw [hinput]
      exact mapError_eq_ok_iff.2 hdecode

/-- **A run starts with what there has to be.** -/
theorem load_eq_ok_iff {options : Options} {sources : List Source} {text : List Char} :
    i.load read stdin = .ok ⟨options, sources, text⟩ ↔
      i.Ready read stdin options sources text := by
  simp only [load, bind_eq_ok_iff, options_eq_ok_iff, loadSources_eq_ok_iff, inputText_eq_ok_iff]
  constructor
  · rintro ⟨options', hoptions, sources', hsources, text', htext, hload⟩
    obtain ⟨rfl, rfl, rfl⟩ := Loaded.mk.inj (Except.ok.inj hload)
    exact ⟨hoptions, hsources, htext⟩
  · rintro ⟨hoptions, hsources, htext⟩
    exact ⟨options, hoptions, sources, hsources, text, htext, rfl⟩

theorem failsToLoad_of_config {path : String} {cause : OptionsError}
    (hpath : i.config? = some path) (h : Options.ofFile read path = .error cause) :
    i.FailsToLoad wording read stdin ((LoadError.config path cause).text wording) := by
  rcases Options.ofFile_eq_error_iff.1 h with ⟨e, hfile, rfl⟩ | ⟨document, hfile, hdocument, rfl⟩
  · exact .configUnreadable hpath hfile
  · exact .configMalformed hpath hfile hdocument

theorem failsToLoad_of_source {options : Options} {front behind : List String} {path : String}
    {sources : List Source} {cause : SourceError} (hoptions : i.Configured read options)
    (hpaths : i.sources = front ++ path :: behind) (hfront : SourcesAt read front sources)
    (h : Source.ofFile read path = .error cause) :
    i.FailsToLoad wording read stdin ((LoadError.source path cause).text wording) := by
  rcases Source.ofFile_eq_error_iff.1 h with ⟨e, hfile, rfl⟩ | ⟨document, hfile, hdocument, rfl⟩
  · exact .sourceUnreadable hoptions hpaths hfront hfile
  · exact .sourceMalformed hoptions hpaths hfront hfile hdocument

/-- **A run that does not start fails for the first thing that is missing.** -/
theorem failsToLoad_of_load {error : LoadError} (h : i.load read stdin = .error error) :
    i.FailsToLoad wording read stdin (error.text wording) := by
  rw [load, bind_eq_error_iff] at h
  rcases h with hconfig | ⟨options, hoptions, h⟩
  · obtain ⟨path, cause, hpath, hcause, rfl⟩ := exists_of_options_eq_error hconfig
    exact failsToLoad_of_config hpath hcause
  have hconfigured := options_eq_ok_iff.1 hoptions
  rcases bind_eq_error_iff.1 h with hsource | ⟨sources, hsources, h⟩
  · obtain ⟨front, path, behind, sources, cause, hpaths, hfront, hcause, rfl⟩ :=
      loadSources_eq_error_iff.1 hsource
    exact failsToLoad_of_source hconfigured hpaths hfront hcause
  have hall := loadSources_eq_ok_iff.1 hsources
  rcases bind_eq_error_iff.1 h with hinput | ⟨text, _, h⟩
  · rw [inputText] at hinput
    cases hpath : i.input? with
    | none =>
      rw [hpath] at hinput
      obtain ⟨cause, hcause, rfl⟩ := mapError_eq_error_iff.1 hinput
      exact .standardInput hconfigured hall hpath hcause
    | some path =>
      rw [hpath] at hinput
      obtain ⟨cause, hcause, rfl⟩ := mapError_eq_error_iff.1 hinput
      exact .input hconfigured hall hpath hcause
  · nomatch h

end Invocation

end CommandLine

end StyleTemplate
