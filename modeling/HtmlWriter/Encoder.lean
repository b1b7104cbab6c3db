import HtmlWriter.Escape
import HtmlWriter.Text.Quoted

/-! Encoders decide how text and attribute values are written. A document asks its
encoder once for each run of text and once for each attribute value. -/

namespace HtmlWriter

/-- How content is encoded: text between tags, and values between double quotes. -/
structure Encoder where
  text : Serialization → String → String
  value : Serialization → String → String

namespace Encoder

/-- Escapes what markup would read as its own, and nothing else. -/
def markup : Encoder := ⟨Escape.text, Escape.value⟩

/-- Writes every character outside ASCII as a numeric reference. -/
def numeric (content : String) : String :=
  String.join (content.toList.map (fun c =>
    if c.toNat < 0x80 then c.toString else "&#x" ++ Text.hexadecimal c.toNat ++ ";"))

/-- Escapes markup, and leaves no character outside ASCII. -/
def ascii : Encoder where
  text serialization content := numeric (Escape.text serialization content)
  value serialization content := numeric (Escape.value serialization content)

/-- Encodes nothing, but brackets what it was asked to encode with the kind of request.
It shows when a document calls its encoder, and for what. -/
def annotating : Encoder where
  text serialization content := "[T " ++ serialization.label ++ " " ++ content ++ "]"
  value serialization content := "[A " ++ serialization.label ++ " " ++ content ++ "]"

end Encoder
end HtmlWriter
