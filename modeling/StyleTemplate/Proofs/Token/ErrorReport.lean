/-
  **What the report of an error shows.**

  Of a drawing only this is relied on: it shows the message, and in front of the stretch
  that is labelled it says `file:line:column` of where the error is (`Drawing.Shows`).
  The drawing of plain reports does so (`Drawing.plain_shows`).
-/
import StyleTemplate.Proofs.Text.Location
import StyleTemplate.Proofs.Token.Failure
import StyleTemplate.Token.ErrorReport

namespace StyleTemplate

/-- What a drawing of reports has to show.  Nothing is asked of a label that ends before
    it starts, and no location if the label leaves the text. -/
structure Drawing.Shows (draw : Drawing) : Prop where
  message : ∀ (report : ErrorReport) (text : List Char),
    report.labelStart ≤ report.labelStop →
    ∃ drawn, draw report text = some drawn ∧ report.message.toList <:+: drawn.toList
  location : ∀ (report : ErrorReport) (text : List Char) (location : Location),
    report.offset = report.labelStart → report.labelStart < text.length →
    report.labelStart ≤ report.labelStop → report.labelStop ≤ text.length →
    location.IsAt text report.offset →
    ∃ drawn, draw report text = some drawn ∧
      s!"{report.file}:{location.line}:{location.column}".toList <:+: drawn.toList

theorem Drawing.plain_shows : Drawing.plain.Shows where
  message report text _ := by
    have hheader : report.header = "Error: " ++ report.message := rfl
    refine ⟨_, rfl, "Error: ".toList, ("\n" ++ report.locationText text ++ "\n").toList, ?_⟩
    simp [hheader]
  location report text location hoffset hstart _ hstop hlocation := by
    have hinside : report.labelStart ≤ text.length ∧ report.labelStop - 1 ≤ text.length := by
      omega
    have hshown : report.locationText text =
        s!"{report.file}:{location.line}:{location.column}" := by
      rw [ErrorReport.locationText, Location.ofStretch?, if_pos hinside,
        hlocation.unique (Location.isAt_ofOffset (hoffset ▸ hstart))]
      rfl
    refine ⟨_, rfl, (report.header ++ "\n").toList, "\n".toList, ?_⟩
    rw [hshown]
    simp

namespace SyntaxError

variable {e : SyntaxError} {extent : Extent}

/-- A report is about the stretch of its error, labelled with the message. -/
theorem format_eq (h : e.extent? = some extent) (draw : Drawing) (text : List Char)
    (file : String) :
    e.format draw text file =
      (draw ⟨file, extent.start, e.message, extent.start, extent.stop, e.message⟩ text).getD
        e.message := by
  rw [format, report, h]

theorem message_infix_format {draw : Drawing} (hdraw : draw.Shows) (h : e.extent? = some extent)
    (hle : extent.start ≤ extent.stop) (text : List Char) (file : String) :
    e.message.toList <:+: (e.format draw text file).toList := by
  obtain ⟨drawn, hdrawn, hmessage⟩ := hdraw.message
    ⟨file, extent.start, e.message, extent.start, extent.stop, e.message⟩ text hle
  rw [format_eq h, hdrawn]
  exact hmessage

/-- **The report of an error in a text says the line and the column where its stretch
    starts.** -/
theorem location_infix_format {draw : Drawing} (hdraw : draw.Shows)
    (h : e.extent? = some extent) (hle : extent.start ≤ extent.stop) {text : List Char}
    (hstart : extent.start < text.length) (hstop : extent.stop ≤ text.length) (file : String)
    {location : Location} (hlocation : location.IsAt text extent.start) :
    s!"{file}:{location.line}:{location.column}".toList <:+: (e.format draw text file).toList := by
  obtain ⟨drawn, hdrawn, hshown⟩ := hdraw.location
    ⟨file, extent.start, e.message, extent.start, extent.stop, e.message⟩ text location rfl hstart
    hle hstop hlocation
  rw [format_eq h, hdrawn]
  exact hshown

end SyntaxError

end StyleTemplate
