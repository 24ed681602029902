/-!
# The key vocabulary

The keys that both metadata schemas share, and the kind of value each is declared to hold. Keys
outside the vocabulary are custom keys and may hold values of any kind.
-/

namespace MediaBridge

/-- The kinds of value a metadata entry can be tagged with. -/
inductive ValueKind where
  | text
  | long
  | float
  | bitmap
  | rating
  | extras
deriving DecidableEq, Inhabited

namespace ValueKind

def all : List ValueKind := [.text, .long, .float, .bitmap, .rating, .extras]

def identifier : ValueKind → String
  | .text => "text"
  | .long => "long"
  | .float => "float"
  | .bitmap => "bitmap"
  | .rating => "rating"
  | .extras => "extras"

def ofIdentifier? (s : String) : Option ValueKind := all.find? (·.identifier = s)

theorem mem_all (k : ValueKind) : k ∈ all := by cases k <;> decide

end ValueKind

inductive MetadataKey where
  | mediaId
  | title
  | displayTitle
  | displaySubtitle
  | displayDescription
  | displayIcon
  | displayIconUri
  | mediaUri
  | extras
  | artist
  | album
  | duration
  | userRating
  | rating
deriving DecidableEq, Inhabited

namespace MetadataKey

def all : List MetadataKey :=
  [.mediaId, .title, .displayTitle, .displaySubtitle, .displayDescription, .displayIcon,
    .displayIconUri, .mediaUri, .extras, .artist, .album, .duration, .userRating, .rating]

def label : MetadataKey → String
  | .mediaId => "media_id"
  | .title => "title"
  | .displayTitle => "display_title"
  | .displaySubtitle => "display_subtitle"
  | .displayDescription => "display_description"
  | .displayIcon => "display_icon"
  | .displayIconUri => "display_icon_uri"
  | .mediaUri => "media_uri"
  | .extras => "extras"
  | .artist => "artist"
  | .album => "album"
  | .duration => "duration"
  | .userRating => "user_rating"
  | .rating => "rating"

/-- The text that stands for a key in a bag. -/
def identifier : MetadataKey → String
  | .mediaId => "mediacompat.metadata.MEDIA_ID"
  | .title => "mediacompat.metadata.TITLE"
  | .displayTitle => "mediacompat.metadata.DISPLAY_TITLE"
  | .displaySubtitle => "mediacompat.metadata.DISPLAY_SUBTITLE"
  | .displayDescription => "mediacompat.metadata.DISPLAY_DESCRIPTION"
  | .displayIcon => "mediacompat.metadata.DISPLAY_ICON"
  | .displayIconUri => "mediacompat.metadata.DISPLAY_ICON_URI"
  | .mediaUri => "mediacompat.metadata.MEDIA_URI"
  | .extras => "mediacompat.metadata.EXTRAS"
  | .artist => "mediacompat.metadata.ARTIST"
  | .album => "mediacompat.metadata.ALBUM"
  | .duration => "mediacompat.metadata.DURATION"
  | .userRating => "mediacompat.metadata.USER_RATING"
  | .rating => "mediacompat.metadata.RATING"

def kind : MetadataKey → ValueKind
  | .displayIcon => .bitmap
  | .extras => .extras
  | .duration => .long
  | .userRating => .rating
  | .rating => .rating
  | _ => .text

def ofIdentifier? (s : String) : Option MetadataKey := all.find? (·.identifier = s)

theorem mem_all (k : MetadataKey) : k ∈ all := by cases k <;> decide

theorem ofIdentifier?_identifier (k : MetadataKey) : ofIdentifier? k.identifier = some k := by
  cases k <;> decide

theorem identifier_of_ofIdentifier? {s : String} {k : MetadataKey}
    (h : ofIdentifier? s = some k) : k.identifier = s := by
  simpa using List.find?_some h

end MetadataKey

/-- The kind a key must hold, none for a custom key. -/
def declaredKind? (key : String) : Option ValueKind :=
  (MetadataKey.ofIdentifier? key).map MetadataKey.kind

@[simp] theorem declaredKind?_identifier (k : MetadataKey) :
    declaredKind? k.identifier = some k.kind := by
  simp [declaredKind?, MetadataKey.ofIdentifier?_identifier]

end MediaBridge
