/-!
Records of a log. A log keeps the records from a level on.
-/

set_option autoImplicit false
set_option relaxedAutoImplicit false

namespace Accumulator

inductive Level where
  | debug
  | info
  | error
  deriving DecidableEq, Repr

namespace Level

def rank : Level → Nat
  | .debug => 0
  | .info => 1
  | .error => 2

def text : Level → String
  | .debug => "DEBUG"
  | .info => "INFO"
  | .error => "ERROR"

end Level

structure LogRecord where
  level : Level
  message : String
  deriving DecidableEq, Repr

namespace LogRecord

def debug (message : String) : LogRecord := { level := .debug, message }

def info (message : String) : LogRecord := { level := .info, message }

def error (message : String) : LogRecord := { level := .error, message }

/-- The records that a log keeps. -/
def keep (threshold : Level) (records : List LogRecord) : List LogRecord :=
  records.filter fun record ↦ threshold.rank ≤ record.level.rank

end LogRecord

end Accumulator
