/-!
# Messages of a run

What happens while files are documented is told in messages with a level and the part of the
program they come from.
-/
namespace CMakeDocs

inductive LogLevel where
  | info
  | warning
  | error
deriving DecidableEq, Repr

def LogLevel.name : LogLevel → String
  | info => "INFO"
  | warning => "WARNING"
  | error => "ERROR"

/-- The part of the program that a message comes from. -/
inductive LogSource where
  | site
  | collector
deriving DecidableEq, Repr

def LogSource.name : LogSource → String
  | site => "cminx"
  | collector => "cminx.aggregator"

structure LogRecord where
  source : LogSource
  level : LogLevel
  message : String
deriving DecidableEq, Repr

end CMakeDocs
