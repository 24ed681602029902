import MediaBridge.Rating.Style
import MediaBridge.Text.Quoted
import MediaBridge.Vocabulary

/-!
# Words

Texts as values carry them: either plain, or a member of one of the vocabularies. A member is
the text it stands for in every respect but its literal.
-/

namespace MediaBridge

inductive Term where
  | style (s : RatingStyle)
  | key (k : MetadataKey)
  | kind (k : ValueKind)
deriving DecidableEq

/-- A text, plain or from a vocabulary. -/
inductive Word where
  | plain (s : String)
  | term (t : Term)
deriving DecidableEq

instance : Inhabited Word := ⟨.plain ""⟩

/-- The literal of a member of a vocabulary: vocabulary, name and value. -/
def memberLiteral (vocabulary name value : String) : String :=
  "<" ++ vocabulary ++ "." ++ name ++ ": " ++ value ++ ">"

namespace Term

def text : Term → String
  | .style s => s.identifier
  | .key k => k.identifier
  | .kind k => k.identifier

def literal : Term → String
  | .style s => memberLiteral "RatingStyle" s.identifier (Text.quoted s.identifier)
  | .key k => memberLiteral "MetadataKey" k.label (Text.quoted k.identifier)
  | .kind k => memberLiteral "MetadataValueType" k.identifier (Text.quoted k.identifier)

end Term

namespace Word

def text : Word → String
  | .plain s => s
  | .term t => t.text

def literal : Word → String
  | .plain s => Text.quoted s
  | .term t => t.literal

def isEmpty (w : Word) : Bool := w.text = ""

@[simp] theorem text_plain (s : String) : (plain s).text = s := rfl

end Word

end MediaBridge
