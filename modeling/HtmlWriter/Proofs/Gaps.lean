import HtmlWriter.Proofs.Unlimited

/-! What formatting writes. Every layout function adds a gap, at most a newline and then
tabs, and the gap is a function of the formatting state and of the element's layout. -/

namespace HtmlWriter

/-- What formatting may put between two tokens. -/
structure Gap where
  newline : Bool := false
  tabs : Nat := 0
deriving DecidableEq, Repr

namespace Gap

def empty : Gap := ⟨false, 0⟩

def text (gap : Gap) : String :=
  (if gap.newline then "\n" else "") ++ String.ofList (List.replicate gap.tabs Format.indentUnit)

@[simp] theorem text_empty : empty.text = "" := rfl

/-- A gap that is wanted in a formatting state: no second newline, and nothing at all unless
newlines are automatic. -/
structure Fits (gap : Gap) (format : Format) : Prop where
  breaks : gap.newline → format.atNewline = false
  plain : format.autoNewline = false → gap = empty

theorem empty_fits (format : Format) : empty.Fits format := ⟨nofun, fun _ => rfl⟩

end Gap

namespace Format

def breakGap (format : Format) : Gap := ⟨format.wantsBreak, 0⟩

/-- The indentation of a line that has just started. -/
def indentGap (format : Format) : Gap :=
  ⟨false, if format.wantsIndent && format.atNewline then format.indentation 0 else 0⟩

def lineGap (format : Format) : Gap :=
  ⟨format.wantsBreak, if format.wantsIndent then format.indentation 0 else 0⟩

def leadGap (format : Format) (tag : Tag) : Gap :=
  match tag.definition.layout with
  | .inline | .lineBreak => format.indentGap
  | .block | .root | .verbatim => format.lineGap

def bodyGap (format : Format) (tag : Tag) : Gap :=
  if tag.definition.layout = .block ∨ tag.definition.layout = .root then format.breakGap
  else .empty

def closeGap (format : Format) (tag : Tag) : Gap :=
  match tag.definition.layout with
  | .verbatim => .empty
  | .block | .root => format.lineGap
  | .inline | .lineBreak => format.indentGap

def endGap (format : Format) (tag : Tag) : Gap :=
  match tag.definition.layout with
  | .block | .root | .verbatim | .lineBreak => format.breakGap
  | .inline => .empty

theorem breakGap_fits (format : Format) : format.breakGap.Fits format := by
  refine ⟨fun breaks => ?_, fun plain => ?_⟩
  · simp only [breakGap, wantsBreak, Bool.and_eq_true, Bool.not_eq_true'] at breaks
    exact breaks.2
  · simp [breakGap, wantsBreak, plain, Gap.empty]

theorem indentGap_fits (format : Format) : format.indentGap.Fits format :=
  ⟨nofun, fun plain => by simp [indentGap, wantsIndent, plain, Gap.empty]⟩

theorem lineGap_fits (format : Format) : format.lineGap.Fits format :=
  ⟨format.breakGap_fits.breaks, fun plain => by
    simp [lineGap, wantsBreak, wantsIndent, plain, Gap.empty]⟩

theorem leadGap_fits (format : Format) (tag : Tag) : (format.leadGap tag).Fits format := by
  unfold leadGap
  split
  all_goals first | exact format.indentGap_fits | exact format.lineGap_fits

theorem bodyGap_fits (format : Format) (tag : Tag) : (format.bodyGap tag).Fits format := by
  unfold bodyGap
  split
  · exact format.breakGap_fits
  · exact Gap.empty_fits format

theorem closeGap_fits (format : Format) (tag : Tag) : (format.closeGap tag).Fits format := by
  unfold closeGap
  split
  · exact Gap.empty_fits format
  all_goals first | exact format.lineGap_fits | exact format.indentGap_fits

theorem endGap_fits (format : Format) (tag : Tag) : (format.endGap tag).Fits format := by
  unfold endGap
  split
  all_goals first | exact format.breakGap_fits | exact Gap.empty_fits format

theorem tabs_bodyGap (format : Format) (tag : Tag) : (format.bodyGap tag).tabs = 0 := by
  unfold bodyGap
  split <;> rfl

theorem tabs_endGap (format : Format) (tag : Tag) : (format.endGap tag).tabs = 0 := by
  unfold endGap
  split <;> rfl

end Format

namespace Writing
variable {document : Document}

theorem run_indentUnits (unlimited : document.Unlimited) (count : Nat) :
    (indentUnits count).run document = .ok () (document.wrote (Gap.text ⟨false, count⟩)) := by
  rw [indentUnits, run_bind_ok (Action.run_demand _ _)]
  split
  · rw [run_write unlimited, Gap.text, if_neg Bool.false_ne_true, String.empty_append]
  · have zero : count = 0 := by omega
    rw [zero]
    change _ = EStateM.Result.ok () (document.wrote "")
    rw [document.wrote_empty]
    rfl

theorem run_freshLine (unlimited : document.Unlimited) (idle : document.unfinished = none) :
    freshLine.run document = .ok () (document.wrote document.format.breakGap.text) := by
  have text : document.format.breakGap.text = if document.format.wantsBreak then "\n" else "" := by
    cases wanted : document.format.wantsBreak <;> simp [Format.breakGap, Gap.text, wanted]
  rw [freshLine, run_refuseInTag_bind idle, text]
  change (if document.format.wantsBreak then write "\n" else pure () : Writing Unit).run document = _
  split
  · exact run_write unlimited _
  · rw [document.wrote_empty]
    rfl

private theorem wantsIndent_after (format : Format) (written : String) :
    (format.after written).wantsIndent = format.wantsIndent := by
  simp [Format.wantsIndent]

private theorem indentation_after (format : Format) (written : String) (offset : Int64) :
    (format.after written).indentation offset = format.indentation offset := by
  simp [Format.indentation]

theorem run_freshIndentedLine (unlimited : document.Unlimited) (idle : document.unfinished = none) :
    (freshIndentedLine 0).run document = .ok () (document.wrote document.format.lineGap.text) := by
  have text : document.format.lineGap.text = document.format.breakGap.text ++
      Gap.text ⟨false, if document.format.wantsIndent then document.format.indentation 0 else 0⟩ := by
    cases wanted : document.format.wantsBreak <;>
      simp [Format.lineGap, Format.breakGap, Gap.text, wanted]
  rw [freshIndentedLine, run_bind_ok (run_freshLine unlimited idle), text, ← document.wrote_wrote]
  generalize written : document.wrote document.format.breakGap.text = broken
  have later : broken.Unlimited := written ▸ unlimited.wrote _
  have wants : broken.format.wantsIndent = document.format.wantsIndent := by
    rw [← written, Document.format_wrote, wantsIndent_after]
  have units : broken.format.indentation 0 = document.format.indentation 0 := by
    rw [← written, Document.format_wrote, indentation_after]
  change (if broken.format.wantsIndent then indentUnits (broken.format.indentation 0)
    else pure () : Writing Unit).run broken = _
  rw [wants, units]
  split
  · exact run_indentUnits later _
  · change _ = EStateM.Result.ok () (broken.wrote "")
    rw [broken.wrote_empty]
    rfl

theorem run_indentFresh (unlimited : document.Unlimited) (idle : document.unfinished = none) :
    (indentFresh 0).run document = .ok () (document.wrote document.format.indentGap.text) := by
  rw [indentFresh, run_refuseInTag_bind idle]
  change (if document.format.wantsIndent && document.format.atNewline then
    indentUnits (document.format.indentation 0) else pure () : Writing Unit).run document = _
  rw [Format.indentGap]
  split
  · exact run_indentUnits unlimited _
  · change _ = EStateM.Result.ok () (document.wrote "")
    rw [document.wrote_empty]
    rfl

theorem run_lead (unlimited : document.Unlimited) (idle : document.unfinished = none) (tag : Tag) :
    (lead tag).run document = .ok () (document.wrote (document.format.leadGap tag).text) := by
  unfold lead Format.leadGap
  cases tag.definition.layout <;> first
    | exact run_indentFresh unlimited idle
    | exact run_freshIndentedLine unlimited idle

theorem run_beginBody (unlimited : document.Unlimited) (idle : document.unfinished = none)
    (tag : Tag) :
    (beginBody tag).run document = .ok () (document.wrote (document.format.bodyGap tag).text) := by
  unfold beginBody Format.bodyGap
  split
  · exact run_freshLine unlimited idle
  · rw [Gap.text_empty, document.wrote_empty]
    rfl

theorem run_endLine (unlimited : document.Unlimited) (idle : document.unfinished = none)
    (tag : Tag) :
    (endLine tag).run document = .ok () (document.wrote (document.format.endGap tag).text) := by
  unfold endLine Format.endGap
  cases tag.definition.layout with
  | inline =>
    rw [Gap.text_empty, document.wrote_empty]
    rfl
  | _ => exact run_freshLine unlimited idle

end Writing
end HtmlWriter
