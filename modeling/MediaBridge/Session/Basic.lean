import MediaBridge.Logging.Level
import MediaBridge.Rating.Build
import MediaBridge.Value.Receiver

/-!
# Sessions

The state that operations share: the settings, the levels of the loggers, what was reported, the
builders at work, and how many not-a-numbers there are. An operation that fails leaves the state as
it was before its fault.
-/

namespace MediaBridge

inductive Builder where
  | metadata (b : MetadataBuilder)
  | legacyMetadata (b : LegacyMetadataBuilder)
  | item (b : ItemBuilder)

/-- The shared state. Builders are known by their places, and not-a-numbers are counted. -/
structure Session where
  settings : SettingsStore := {}
  levels : LevelTable := .initial
  log : List LogRecord := []
  builders : List Builder := []
  nans : Nat := 1

abbrev Action := ExceptT Fault (StateM Session)

namespace Action

/-- Carry out a traced operation. What reaches the level of its logger is reported. -/
def ofTraced {α : Type} (t : Traced α) : Action α := do
  modify fun s => { s with log := s.log ++ s.levels.visible t.log }
  ExceptT.mk (pure t.result)

/-- Carry out an operation that reports nothing. -/
def ofExcept {α : Type} (r : Except Fault α) : Action α := ExceptT.mk (pure r)

instance : MonadLift (Except Fault) Action := ⟨ofExcept⟩

instance : MonadLift Traced Action := ⟨ofTraced⟩

def settings : Action Settings := do
  let (r, store) := (← get).settings.get
  modify fun s => { s with settings := store }
  ofExcept r

/-- Give a logger a level, the one of the settings unless another is given, and tell the name and
the level of the logger. -/
def logger (name level : Value) : Action (String × Int) := do
  let level ← if level.isNone then pure (levelNumber (← settings).logLevel) else level.toLevel
  let name ← name.toLoggerName
  modify fun s => { s with levels := s.levels.set name level }
  return (name, level)

def start (b : Builder) : Action Value := do
  let builders := (← get).builders
  modify fun s => { s with builders := builders ++ [b] }
  return .builder builders.length

def builder (v : Value) : Action (Nat × Builder) := do
  let .builder id := v | throw .missingPart
  let some b := (← get).builders[id]? | throw .missingPart
  return (id, b)

/-- Store what a setter stores in a builder of metadata of either schema. The value of the setter is
looked at before the builder. -/
def store (v : Value) (change : Except Fault Change) : Action Value := do
  let c ← change
  let (id, b) ← builder v
  let b ← match b with
    | .metadata b => Builder.metadata <$> ofExcept (b.store c)
    | .legacyMetadata b => Builder.legacyMetadata <$> ofExcept (b.store c)
    | .item _ => throw .missingPart
  modify fun s => { s with builders := s.builders.set id b }
  return v

/-- Change a builder of items. Other objects that take fields are not affected. -/
def updateItem (v : Value) (f : ItemBuilder → ItemBuilder) : Action Value := do
  v.checkTakesField
  if let .builder id := v then
    if let some (.item b) := (← get).builders[id]? then
      modify fun s => { s with builders := s.builders.set id (.item (f b)) }
  return v

def buildMetadata (v : Value) : Action Metadata := do
  let (_, .metadata b) ← builder v | throw .missingPart
  b.build

def buildLegacyMetadata (v : Value) : Action LegacyMetadata := do
  let (_, .legacyMetadata b) ← builder v | throw .missingPart
  return b.build

def buildItem (v : Value) : Action Item := do
  let (_, .item b) ← builder v | throw .missingPart
  b.build

/-- A not-a-number that was never seen before. -/
def newNan : Action Double := do
  let payload := (← get).nans
  modify fun s => { s with nans := payload + 1 }
  return .nan payload

/-- A number of stars, which may be written out. -/
def starRating (style stars : Value) : Action Rating := do
  Rating.star style stars (← newNan)

/-- A percentage, which may be written out. -/
def percentageRating (percent : Value) : Action Rating := do
  Rating.percentage percent (← newNan)

end Action

end MediaBridge
