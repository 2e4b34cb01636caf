import JavaOutline.Log.Level
import JavaOutline.Outline.Rejection

/-!
# Events

What is reported while a source is read and a method outlined. Each event has a level, a target,
which names the part that reports it, and fields.
-/

namespace JavaOutline

/-- The target of the events of outlining. -/
def outlineTarget : String := "nova.distill"

/-- The target that covers all events of reading. -/
def readingTarget : String := "nova_syntax"

/-- The value of a field. -/
inductive FieldValue where
  | number (value : Nat)
  | text (value : String)
  deriving DecidableEq, Repr

/-- Something that was done. -/
inductive Event where
  /-- A file of `size` bytes with `types` types was read. -/
  | read (types size : Nat)
  /-- A statement is about to be outlined. -/
  | statement (title : String) (span : Span)
  /-- A block was outlined. -/
  | outlinedBlock (statements nodes : Nat)
  /-- A block was rejected. -/
  | rejected (rejection : Rejection)
  /-- A method has nothing to outline. -/
  | noBody (method : String)
  /-- A method was outlined. -/
  | outlinedMethod (method : String) (nodes : Nat)
  deriving DecidableEq, Repr

namespace Event

/-- The level of an event. -/
def level : Event → Level
  | read .. | statement .. => .trace
  | outlinedBlock .. | noBody .. | outlinedMethod .. => .debug
  | rejected .. => .warn

/-- The target of an event. -/
def target : Event → String
  | read .. => readingTarget ++ "::java::parser"
  | _ => outlineTarget

/-- The fields of an event; the field `message` says what happened. -/
def fields : Event → Except Fault (List (String × FieldValue))
  | read types size =>
    return [("message", .text "parsed compilation unit"), ("types", .number types),
      ("len", .number size)]
  | statement title span =>
    return [("message", .text "statement"), ("kind", .text title), ("range", .text span.text)]
  | outlinedBlock statements nodes =>
    return [("message", .text "converted block"), ("statements", .number statements),
      ("nodes", .number nodes)]
  | rejected rejection => do
    let error ← rejection.message
    return [("message", .text "rejected method body"), ("error", .text error)]
  | noBody method => return [("message", .text "method has no body"), ("method", .text method)]
  | outlinedMethod method nodes =>
    return [("message", .text "distilled method"), ("method", .text method),
      ("nodes", .number nodes)]

end Event

end JavaOutline
