/-!
# Levels of events

Events are reported at five levels of weight. A limit lets pass the events that are at least as
weighty; the limit `none` lets nothing pass.
-/

namespace JavaOutline

/-- The weight of an event. -/
inductive Level where
  | error | warn | info | debug | trace
  deriving DecidableEq, Repr

namespace Level

/-- The position of a level, weightiest first. -/
def rank : Level → Nat
  | error => 1
  | warn => 2
  | info => 3
  | debug => 4
  | trace => 5

/-- The name of a level in lower case. -/
def name : Level → String
  | error => "error"
  | warn => "warn"
  | info => "info"
  | debug => "debug"
  | trace => "trace"

/-- The name of a level in upper case. -/
def title : Level → String
  | error => "ERROR"
  | warn => "WARN"
  | info => "INFO"
  | debug => "DEBUG"
  | trace => "TRACE"

/-- All levels. -/
def all : List Level := [error, warn, info, debug, trace]

end Level

/-- The least weight that passes; `none` lets nothing pass. -/
abbrev Limit := Option Level

namespace Limit

/-- Whether an event of a level passes. -/
def allows (limit : Limit) (level : Level) : Bool :=
  limit.any fun least => level.rank ≤ least.rank

/-- The name of a limit. -/
def name : Limit → String
  | none => "off"
  | some level => level.name

/-- The position of a limit: 0 lets nothing pass. -/
def rank : Limit → Nat
  | none => 0
  | some level => level.rank

/-- All limits, from the one that lets nothing pass. -/
def all : List Limit := none :: Level.all.map some

end Limit

end JavaOutline
