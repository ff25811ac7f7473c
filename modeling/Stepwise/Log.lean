/-!
# Messages of a computation

Every computation leaves messages for those who want to follow it. A message has a level, and the
messages of a computation are part of its result: nothing is written while it runs.
-/

namespace Stepwise

namespace Log

/-- How important a message is, the most important level first. -/
inductive Level where
  | error
  | warn
  | info
  | debug
  deriving DecidableEq

/-- The place of a level in the order of importance. -/
def Level.rank : Level → Nat
  | error => 1
  | warn => 2
  | info => 3
  | debug => 4

/-- The name of a level in a log. -/
def Level.name : Level → String
  | error => "ERROR"
  | warn => "WARN"
  | info => "INFO"
  | debug => "DEBUG"

/-- A message of a computation. -/
structure Message where
  level : Level
  text : String
  deriving DecidableEq

end Log

/-- A result together with the messages left on the way to it, in their order. -/
structure Logged (α : Type) where
  log : List Log.Message
  result : α

namespace Logged

instance : Monad Logged where
  pure result := { log := [], result }
  bind first next :=
    let second := next first.result
    { log := first.log ++ second.log, result := second.result }

/-- Leaves some messages. -/
def leave (messages : List Log.Message) : Logged Unit where
  log := messages
  result := ()

/-- Leaves a message of some level. -/
def note (level : Log.Level) (text : String) : Logged Unit :=
  leave [{ level, text }]

variable {α β : Type}

/-- A value alone leaves no messages. -/
theorem pure_eq (a : α) : (pure a : Logged α) = { log := [], result := a } :=
  rfl

/-- Of two computations in a row, the messages of the first come first. -/
theorem bind_eq (first : Logged α) (next : α → Logged β) :
    first >>= next =
      { log := first.log ++ (next first.result).log, result := (next first.result).result } :=
  rfl

end Logged

end Stepwise
