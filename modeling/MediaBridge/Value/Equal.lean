import MediaBridge.Value.Key

/-!
# Equality of values

When two values count as equal. Numbers are compared by value and texts by their characters;
lists and objects place by place; maps and bags key by key, without regard to order. A
not-a-number is not equal to itself, but as part of a larger value it is the same part as itself.
-/

namespace MediaBridge.Value

/-- Whether two values that can be keys are the same key. -/
def sameCode (a b : Value) : Bool :=
  match a.code?, b.code? with
  | some c, some d => c = d
  | _, _ => false

mutual

def same : Value → Value → Bool
  | .bitmap name, .bitmap name' => name = name'
  | .rating r, .rating r' => r.same r'
  | .legacyRating r, .legacyRating r' => r.same r'
  | .list xs, .list ys => sameList xs ys
  | .pair first second, .pair first' second' => first.same first' && second.same second'
  | .uri ⟨scheme, authority, path, query, fragment⟩, .uri u =>
    scheme.same u.scheme && authority.same u.authority && path.same u.path &&
      query.same u.query && fragment.same u.fragment
  | .map _ ⟨l⟩, .map _ m => l.length = m.size && sameIn l m
  | .entry ⟨kind, content⟩, .entry ⟨kind', content'⟩ => kind = kind' && content.same content'
  | .metadata ⟨l⟩, .metadata m => l.length = m.size && sameEntriesIn l m
  | .legacyMetadata ⟨l⟩, .legacyMetadata m => l.length = m.size && sameIn l m
  | .description d, .description d' => sameFields d d'
  | .item ⟨mediaId, .none, flags⟩, .item ⟨mediaId', .none, flags'⟩ =>
    mediaId.text = mediaId'.text && flags.toInt = flags'.toInt
  | .item ⟨mediaId, .some ⟨l⟩, flags⟩, .item ⟨mediaId', .some m, flags'⟩ =>
    mediaId.text = mediaId'.text && flags.toInt = flags'.toInt && l.length = m.size &&
      sameEntriesIn l m
  | .legacyItem ⟨d, flags⟩, .legacyItem ⟨d', flags'⟩ =>
    sameFields d d' && flags.toInt = flags'.toInt
  | .conversion c, .conversion c' => c = c'
  | .settings s, .settings s' => s = s'
  | a, b => sameCode a b
termination_by structural v => v

def sameList : List Value → List Value → Bool
  | [], [] => true
  | x :: xs, y :: ys => x.same y && sameList xs ys
  | _, _ => false
termination_by structural xs => xs

/-- Whether a map has the same value at each key of a list. -/
def sameIn : List (Value × Value) → OrderedMap Value Value → Bool
  | [], _ => true
  | (k, v) :: l, m =>
    (match m.get? k with
      | some w => v.same w
      | .none => false) && sameIn l m
termination_by structural l => l

/-- Whether metadata have the same entry at each key of a list. -/
def sameEntriesIn : List (Value × Tagged Value) → OrderedMap Value (Tagged Value) → Bool
  | [], _ => true
  | (k, ⟨kind, content⟩) :: l, m =>
    (match m.get? k with
      | some e => kind = e.kind && content.same e.content
      | .none => false) && sameEntriesIn l m
termination_by structural l => l

def sameFields : DescriptionOf Value → DescriptionOf Value → Bool
  | ⟨mediaId, title, subtitle, about, iconBitmap, iconUri, extras, mediaUri⟩, d =>
    mediaId.same d.mediaId && title.same d.title && subtitle.same d.subtitle &&
      about.same d.description && iconBitmap.same d.iconBitmap && iconUri.same d.iconUri &&
      extras.same d.extras && mediaUri.same d.mediaUri
termination_by structural d => d

end

def isNan : Value → Bool
  | .real (.nan _) => true
  | _ => false

def equal (a b : Value) : Bool := !a.isNan && a.same b

end MediaBridge.Value
