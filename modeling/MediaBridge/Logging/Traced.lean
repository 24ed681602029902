import MediaBridge.Fault

/-!
# Traced results

Results of operations that report on their way. What was reported before a fault is kept.
-/

namespace MediaBridge

/-- A record for debugging, sent to the named logger. Its text is put together by whoever handles
it, so no operation fails over that. -/
structure LogRecord where
  logger : String
  text : String
deriving DecidableEq

/-- The records of an operation, and its result. -/
structure Traced (α : Type) where
  log : List LogRecord
  result : Except Fault α

namespace Traced

instance : Monad Traced where
  pure a := ⟨[], .ok a⟩
  bind x f :=
    match x.result with
    | .ok a => ⟨x.log ++ (f a).log, (f a).result⟩
    | .error e => ⟨x.log, .error e⟩

instance : MonadLift (Except Fault) Traced where
  monadLift r := ⟨[], r⟩

def fail {α : Type} (fault : Fault) : Traced α := ⟨[], .error fault⟩

def report (logger text : String) : Traced Unit := ⟨[⟨logger, text⟩], .ok ()⟩

theorem pure_def {α : Type} (a : α) : (pure a : Traced α) = ⟨[], .ok a⟩ := rfl

theorem bind_ok {α β : Type} (log : List LogRecord) (a : α) (f : α → Traced β) :
    (⟨log, .ok a⟩ : Traced α) >>= f = ⟨log ++ (f a).log, (f a).result⟩ := rfl

end Traced

end MediaBridge
