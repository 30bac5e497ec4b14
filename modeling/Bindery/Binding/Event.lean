/-!
# Events

What a run reports while it goes on.
-/

set_option autoImplicit false

namespace Bindery

/-- How much an event matters. -/
inductive EventLevel where
  | debug
  | info
  | warn
  | error
deriving Repr, DecidableEq

def EventLevel.name : EventLevel → String
  | debug => "DEBUG"
  | info => "INFO"
  | warn => "WARN"
  | error => "ERROR"

/-- The value of a field of an event. -/
inductive EventValue where
  | text (text : String)
  | count (count : Nat)
deriving Repr, DecidableEq

/-- Something worth reporting. -/
inductive Event where
  | skippedByRule (symbol rule : String)
  | skippedThroughType (symbol skipped spelling : String)
  | notExported (symbol : String)
  | variadic (symbol : String)
  | rvalueParameter (symbol : String)
  | baseSkippedByRule (base rule : String)
  | baseMentionsSkipped (base skipped : String)
  | autoGenerated (instantiation identifier : String)
  | identifierCollision (identifier bound rejected : String)
  | unitGenerated (fragments builders : Nat)
  | headerSkipped (header : String)
  | noBindings (header error : String)
  | generationFinished (units failed : Nat)
  | written (path : String)
  | headerFailed (header error : String)
deriving Repr, DecidableEq

namespace Event

def level : Event → EventLevel
  | identifierCollision _ _ _ => .warn
  | noBindings _ _ => .warn
  | generationFinished _ _ => .info
  | headerFailed _ _ => .error
  | _ => .debug

def message? : Event → Option String
  | skippedByRule _ _ => some "skipped by rule"
  | skippedThroughType _ _ spelling => some ("skipped through type " ++ spelling)
  | notExported _ => some "not exported"
  | variadic _ => some "variadic"
  | rvalueParameter _ => some "rvalue reference parameter"
  | baseSkippedByRule _ _ => some "base skipped by rule"
  | baseMentionsSkipped _ _ => some "base mentions skipped symbol"
  | autoGenerated _ _ => some "auto-generated"
  | identifierCollision _ _ _ => some "binding identifier collision"
  | unitGenerated _ _ => some "unit generated"
  | headerSkipped _ => some "skipped by files.skip"
  | noBindings _ _ => some "no bindings generated"
  | generationFinished _ _ => some "generation finished"
  | written _ => some "written"
  | headerFailed _ _ => none

def fields : Event → List (String × EventValue)
  | skippedByRule symbol rule => [("symbol", .text symbol), ("rule", .text rule)]
  | skippedThroughType symbol skipped _ => [("symbol", .text symbol), ("skipped", .text skipped)]
  | notExported symbol => [("symbol", .text symbol)]
  | variadic symbol => [("symbol", .text symbol)]
  | rvalueParameter symbol => [("symbol", .text symbol)]
  | baseSkippedByRule base rule => [("base", .text base), ("rule", .text rule)]
  | baseMentionsSkipped base skipped => [("base", .text base), ("skipped", .text skipped)]
  | autoGenerated instantiation identifier =>
      [("instantiation", .text instantiation), ("identifier", .text identifier)]
  | identifierCollision identifier bound rejected =>
      [("identifier", .text identifier), ("bound", .text bound), ("rejected", .text rejected)]
  | unitGenerated fragments builders =>
      [("fragments", .count fragments), ("builders", .count builders)]
  | headerSkipped header => [("header", .text header)]
  | noBindings header error => [("header", .text header), ("error", .text error)]
  | generationFinished units failed => [("units", .count units), ("failed", .count failed)]
  | written path => [("path", .text path)]
  | headerFailed header error => [("header", .text header), ("error", .text error)]

end Event

end Bindery
