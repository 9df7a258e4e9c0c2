/-
BlockHooks/Log.lean

Log records.

A hook tells its host what it did by writing records.  What becomes of a
record is the host's business: a state may keep them or drop them, and no
hook ever reads one back.
-/
import BlockHooks.Action

namespace BlockHooks

/-- How urgent a record is, the least urgent level first. -/
inductive Level where
  | trace
  | debug
  | info
  | warn
  | error
  deriving DecidableEq, Repr

/-- The name that a level is told by. -/
def Level.name : Level → String
  | .trace => "TRACE"
  | .debug => "DEBUG"
  | .info => "INFO"
  | .warn => "WARN"
  | .error => "ERROR"

/-- What a hook tells its host in passing. -/
structure LogRecord where
  level : Level
  text : String
  deriving DecidableEq, Repr

/-- States that log records can be written to. -/
class LogSink (σ : Type) where
  write : LogRecord → σ → σ

/-- Writes a log record. -/
def report {σ : Type} [LogSink σ] (level : Level) (text : String) : StateM σ Unit :=
  fun s => ((), LogSink.write ⟨level, text⟩ s)

/-- Writes a log record amid a computation that may fail. -/
def log {σ ε : Type} [LogSink σ] (level : Level) (text : String) : Action σ ε Unit :=
  Action.ofState (report level text)

@[simp] theorem run_log {σ ε : Type} [LogSink σ] (level : Level) (text : String) (s : σ) :
    Action.run (log level text : Action σ ε Unit) s =
      (.ok (), LogSink.write ⟨level, text⟩ s) :=
  rfl

end BlockHooks
