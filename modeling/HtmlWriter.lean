import HtmlWriter.Script.Run
import HtmlWriter.Proofs.Restoration
import HtmlWriter.Proofs.RoundTrip
import HtmlWriter.Proofs.ScriptCalls
import HtmlWriter.Proofs.Nesting
import HtmlWriter.Proofs.RawContent
import HtmlWriter.Proofs.Streaming
import HtmlWriter.Proofs.Blocking
import HtmlWriter.Proofs.Capacity
import HtmlWriter.Proofs.Prefixes
import HtmlWriter.Proofs.Newlines
import HtmlWriter.Proofs.Spacing
import HtmlWriter.Proofs.LineStarts
import HtmlWriter.Proofs.Compact
import HtmlWriter.Proofs.Swapping
import HtmlWriter.Proofs.Detachment
import HtmlWriter.Proofs.RawRuns
import HtmlWriter.Proofs.RawSplitting
import HtmlWriter.Proofs.CutWrites
import HtmlWriter.Proofs.Underway
import HtmlWriter.Proofs.Lines
import HtmlWriter.Proofs.Indenting
import HtmlWriter.Proofs.Escaping
import HtmlWriter.Proofs.XmlValues
import HtmlWriter.Proofs.Comments
import HtmlWriter.Proofs.StartTags
import HtmlWriter.Proofs.XmlNames
import HtmlWriter.Proofs.ForeignAttributes
import HtmlWriter.Proofs.EffectiveModels
import HtmlWriter.Proofs.TextShortcut
import HtmlWriter.Proofs.RejectedValues
import HtmlWriter.Proofs.TagSets
import HtmlWriter.Proofs.Depths
