import MediaBridge.Logging.Traced
import MediaBridge.Settings.Load

/-!
# Levels of loggers

Loggers have dotted names. A logger without a level of its own has that of the nearest logger
above it that has one, and reports only what reaches its level.
-/

namespace MediaBridge

def levelNumbers : List (String × Int) :=
  [("NOTSET", 0), ("DEBUG", 10), ("INFO", 20), ("WARN", 30), ("WARNING", 30), ("ERROR", 40),
    ("CRITICAL", 50), ("FATAL", 50)]

def debugLevel : Int := 10

def informationLevel : Int := 20

/-- The number of a level given by name. An unknown name stands for the informational level. -/
def levelNumber (name : String) : Int :=
  (levelNumbers.lookup (Text.upper (Text.trim name))).getD informationLevel

def Value.toLevel : Value → Except Fault Int
  | .text w => .ok (levelNumber w.text)
  | .bool b => .ok (if b then 1 else 0)
  | .whole n => .ok n.toInt
  | _ => .error .unsuitable

/-- The name of the logger above all others. -/
def rootLogger : String := "root"

/-- The levels that loggers were given. -/
abbrev LevelTable := OrderedMap String Int

namespace LevelTable

/-- The conversions report everything, and all others what informs. -/
def initial : LevelTable :=
  OrderedMap.ofList [(rootLogger, informationLevel), ("mediacompat.mappers.metadata", debugLevel),
    ("mediacompat.mappers.rating", debugLevel)]

/-- The names above a name, nearest first. The name is given in reverse. A dot counts only if some
character precedes it and the dot before it does not count. -/
def ancestors : (skip : Bool) → List Char → List String
  | _, [] => []
  | skip, c :: cs =>
    if !skip && c == '.' && !cs.isEmpty then String.ofList cs.reverse :: ancestors true cs
    else ancestors false cs

/-- The level in force for a logger: the first one that is not zero among its own and those of the
loggers above it. -/
def effective (t : LevelTable) (name : String) : Int :=
  ((name :: ancestors false name.toList.reverse ++ [rootLogger]).findSome? fun n =>
    (t.get? n).filter (· ≠ 0)).getD 0

def set (t : LevelTable) (name : String) (level : Int) : LevelTable := t.insert name level

/-- The records that reach the level of their logger. -/
def visible (t : LevelTable) (log : List LogRecord) : List LogRecord :=
  log.filter fun r => t.effective r.logger ≤ debugLevel

end LevelTable

/-- The name of a logger. Whatever counts as empty names the logger above all others. -/
def Value.toLoggerName (v : Value) : Except Fault String :=
  if !v.isTruthy then .ok rootLogger
  else
    match v.text? with
    | some s => .ok s
    | Option.none => .error .unsuitable

end MediaBridge
