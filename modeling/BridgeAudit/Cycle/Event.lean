import BridgeAudit.Timeline.Ingest
import BridgeAudit.Timeline.Stats

/-!
What a cycle tells about itself.

* `Event`: a step in the life of a cycle.
* `LogLine`: a line for the log; `Event.logLine` is the line for an event.
* `Note`: an event or a log line; a run leaves a list of notes.
* `Handler`, `deliver`: those who are told, in the order in which they are registered.
-/

namespace BridgeAudit

/-! ### Log lines -/

/-- How much a log line matters. -/
inductive Level
  | debug
  | info
  | warn
  | error
  deriving DecidableEq, Repr

/-- The name of a level. -/
def Level.name : Level → String
  | debug => "DEBUG"
  | info => "INFO"
  | warn => "WARN"
  | error => "ERROR"

/-- A line for the log. -/
structure LogLine where
  level : Level
  message : String
  deriving DecidableEq, Repr

/-- A log line as text. -/
def LogLine.text (l : LogLine) : String := l.level.name ++ " " ++ l.message

/-! ### Events -/

/-- A step in the life of a cycle. -/
inductive Event
  /-- The cycle begins to fetch. -/
  | started (cycle : Nat)
  /-- A record does not go on the timeline. -/
  | rejected (cycle : Nat) (collection : Collection) (reason : String) (raw : Json)
  /-- The cycle has made a view. -/
  | completed (cycle : Nat) (stats : Stats)
  /-- A fetch has failed, and the cycle with it. -/
  | failed (cycle : Nat) (error : String)
  /-- The cycle has been cancelled while it was fetching. -/
  | cancelled (cycle : Nat)

/-- The kinds of event. -/
inductive EventKind
  | started
  | rejected
  | completed
  | failed
  | cancelled
  deriving DecidableEq, Repr

namespace Event

/-- The cycle that an event belongs to. -/
def cycle : Event → Nat
  | started c => c
  | rejected c _ _ _ => c
  | completed c _ => c
  | failed c _ => c
  | cancelled c => c

/-- The kind of an event. -/
def kind : Event → EventKind
  | started _ => .started
  | rejected _ _ _ _ => .rejected
  | completed _ _ => .completed
  | failed _ _ => .failed
  | cancelled _ => .cancelled

/-- The log line for an event. -/
def logLine : Event → LogLine
  | started c => ⟨.debug, "Reconcile cycle " ++ Digits.numeral c ++ " started"⟩
  | rejected c collection reason raw =>
      ⟨.warn, "Cycle " ++ Digits.numeral c ++ ": skipping record from " ++ collection.name ++
        ": " ++ reason ++ "; raw record: " ++ raw.compact⟩
  | completed c stats =>
      ⟨.info, "Reconcile cycle " ++ Digits.numeral c ++ " completed: " ++ stats.summary⟩
  | failed c error => ⟨.error, "Reconcile cycle " ++ Digits.numeral c ++ " failed: " ++ error⟩
  | cancelled c => ⟨.info, "Reconcile cycle " ++ Digits.numeral c ++ " cancelled"⟩

end Event

/-- The log line for a cycle that begins to fetch. -/
def fetchingLine (source : String) : LogLine :=
  ⟨.debug, "Fetching auditor collections from " ++ source⟩

/-! ### Notes and handlers -/

/-- An event or a log line. -/
inductive Note
  | event (e : Event)
  | log (l : LogLine)

/-- A note as a line for the log. -/
def Note.line : Note → LogLine
  | event e => e.logLine
  | log l => l

/-- The two ways to deal with an event. -/
inductive HandlerKind
  /-- The event is kept. -/
  | recorder
  /-- The event is logged. -/
  | logger
  deriving DecidableEq, Repr

/-- Someone who is told of events. -/
structure Handler where
  name : String
  kind : HandlerKind
  deriving DecidableEq, Repr

namespace Handler

/-- The log line for a handler that is registered. -/
def registered (h : Handler) : LogLine :=
  ⟨.debug, "Registered reconcile event handler " ++ h.name⟩

/-- The handler that logs. -/
def tracing : Handler := ⟨"TracingEventHandler", .logger⟩

/-- What a handler makes of an event. -/
def handle (h : Handler) (e : Event) : Note :=
  match h.kind with
  | .recorder => .event e
  | .logger => .log e.logLine

end Handler

/-- Tells all handlers of an event, one after the other. -/
def deliver (handlers : List Handler) (e : Event) : List (Handler × Note) :=
  handlers.map fun h => (h, h.handle e)

end BridgeAudit
