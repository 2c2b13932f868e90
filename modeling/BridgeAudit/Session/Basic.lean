import BridgeAudit.Session.Source

/-!
The state of a session: one source, loads that are under way, and the view that is published.

* `Load`: a load that has begun and waits for its collections. A reload is a load whose view is
  to be published; it holds a ticket, and the reload with the latest ticket is the newest. Any
  other load goes by a `Signal`, which the session keeps under the number of its cycle.
* `Act`: what can be done to a session; a `Hook` does such acts while a handler hears of an event.
* `Session`: the state. The slot holds the ticket of the reload that can still be cancelled.
* `Happening`: what the journal takes down; `Session.journal` holds everything that has happened
  so far, in order.
* `Session.launch`, `Session.close`: the beginning and the end of a load.
* `Session.cancel`: cancels the reload in the slot.
* `Session.drop`, `Session.keep`: the loads by name.
* `Session.moveSignal`: the signal of a load is set or let go of.
* `Session.subscribe`, `Session.look`: a subscriber, and whether there is something new for it.
-/

namespace BridgeAudit

/-! ### Loads -/

/-- The signal of a load that is not a reload. -/
structure Signal where
  /-- The load is to stop. -/
  raised : Bool
  /-- There still is someone who can change that. -/
  attached : Bool
  deriving DecidableEq, Repr

namespace Signal

/-- What can be done to a signal from the other end. -/
inductive Move
  | set (raised : Bool)
  /-- Nobody will change it any more. -/
  | detach
  deriving DecidableEq, Repr

/-- A signal that nobody can change stays as it is. -/
def move (signal : Signal) : Move → Signal
  | .set raised => if signal.attached then ⟨raised, true⟩ else signal
  | .detach => if signal.attached then ⟨signal.raised, false⟩ else signal

end Signal

/-- What a load is for. -/
inductive Purpose
  /-- Its view is to be published. -/
  | reload (ticket : Nat)
  /-- Its view goes to the caller alone. It begins with the given signal. -/
  | direct (signal : Signal)
  deriving DecidableEq, Repr

/-- The ticket of a reload. -/
def Purpose.ticket? : Purpose → Option Nat
  | reload ticket => some ticket
  | direct _ => none

/-- A load that has begun. -/
structure Load where
  cycle : Nat
  purpose : Purpose
  arrived : Arrived := .none

/-- What a load comes to. -/
abbrev Result := Except CycleError View

/-- How far a load has come. -/
inductive Progress
  | pending (load : Load)
  | ended (result : Result)

/-! ### Acts and hooks -/

/-- The kinds of load that can be started. -/
inductive Session.Start
  | reload
  /-- A load that nobody can stop. -/
  | plain
  /-- A load with a signal, which may be raised or let go of from the beginning. -/
  | signalled (signal : Signal)
  deriving DecidableEq, Repr

/-- What can be done to a session, where an `α` says which hooks are armed. -/
inductive Act (α : Type)
  | start (id : String) (kind : Session.Start)
  | poll (id : String)
  | drop (id : String)
  | signal (cycle : Nat) (move : Signal.Move)
  | hold (c : Collection)
  | release (c : Collection)
  | fail (c : Collection) (e : AuditorError)
  | recover (c : Collection)
  | serve (c : Collection) (items : List Json)
  | cancel
  | arm (hooks : α)
  | subscribe (id : String)
  | look (id : String)

/-- What can be done while a handler hears of an event: all but the arming of hooks. -/
abbrev Call := Act Empty

/-- What a hook does. -/
inductive HookAction
  /-- It starts a reload and looks at it once. What is still pending then is dropped, or else
  kept under a name. -/
  | reload (keep : Option String)
  /-- It cancels the reload in the slot. -/
  | cancel
  /-- It makes calls, one after another. -/
  | calls (calls : List Call)

/-- Something that a handler does once, as soon as it hears of the next event of a kind. Hooks of
one handler and one kind run in the order in which they stand, one at each event; a list of hooks
can thus say for every event of a run what each handler does there. -/
structure Hook where
  /-- The place of the handler among all of them. -/
  place : Nat
  kind : EventKind
  action : HookAction

/-- A hook is due when its handler hears of an event of its kind. -/
def Hook.isDue (k : Hook) (place : Nat) (e : Event) : Bool := k.place = place && k.kind = e.kind

/-! ### The journal -/

/-- What has come of a hook. -/
inductive HookOutcome
  | cancelled
  | dropped
  | kept
  | ended (result : Result)

/-- What the journal takes down. -/
inductive Happening
  /-- An event is told, or a log line is written. -/
  | note (n : Note)
  /-- The handler at a place hears of an event and makes something of it. -/
  | heard (place : Nat) (e : Event) (made : Note)
  /-- A load looks at its collections, and finds the given source. -/
  | looked (cycle : Nat) (source : Source)
  /-- A load begins. -/
  | began (cycle : Nat) (purpose : Purpose)
  /-- A load ends. -/
  | ended (cycle : Nat) (purpose : Purpose) (result : Result)
  /-- A load is given up before its end. -/
  | dropped (cycle : Nat) (purpose : Purpose)
  /-- Something is done to the signal of a load. -/
  | signal (cycle : Nat) (move : Signal.Move)
  /-- The reload in the slot is cancelled, if there is one. -/
  | cancel
  /-- A hook has run. -/
  | hook (outcome : HookOutcome)

/-- What a session has taken down, in order. -/
abbrev Journal := List Happening

/-! ### The state -/

/-- The state of a session. -/
structure Session where
  policy : Policy
  /-- The instant at which every view is made. -/
  clock : Instant
  source : Source
  /-- Those who hear of events, in the order in which they are registered. -/
  handlers : List Handler := []
  /-- The number of loads so far. -/
  cycles : Nat := 0
  /-- The number of reloads so far. -/
  tickets : Nat := 0
  /-- The reload that can be cancelled, which may have ended already. -/
  slot : Option Nat := none
  /-- The reloads that have been cancelled. -/
  cancelled : List Nat := []
  /-- The signals of the loads that are not reloads, by cycle, the latest state of each first. -/
  signals : List (Nat × Signal) := []
  /-- The views that have been published, the latest first. -/
  published : List View := []
  /-- The loads that have neither ended nor been dropped. -/
  loads : List (String × Load) := []
  /-- How many of the views each subscriber knows of. -/
  subscribers : List (String × Nat) := []
  /-- The hooks that have not run yet. -/
  hooks : List Hook := []
  journal : Journal := []

namespace Session

/-- A session in which nothing has happened yet. -/
def fresh (policy : Policy) (clock : Instant) (source : Source) (handlers : List Handler) :
    Session :=
  { policy := policy, clock := clock, source := source, handlers := handlers }

/-- The view that is published at the moment. -/
def current (s : Session) : Option View := s.published.head?

/-- Takes something down. -/
def record (s : Session) (h : Happening) : Session := { s with journal := s.journal ++ [h] }

/-- Takes a log line down. -/
def log (s : Session) (l : LogLine) : Session := s.record (.note (.log l))

/-! ### Cancelling -/

/-- Cancels the reload in the slot, and empties the slot. -/
def clearSlot (s : Session) : Session :=
  match s.slot with
  | none => s
  | some ticket => { s with slot := none, cancelled := ticket :: s.cancelled }

/-- Cancels the reload in the slot on demand. -/
def cancel (s : Session) : Session := s.clearSlot.record .cancel

/-- A load is to stop. -/
def isCancelled (s : Session) (l : Load) : Bool :=
  match l.purpose with
  | .reload ticket => s.cancelled.contains ticket
  | .direct _ => (s.signals.lookup l.cycle).any Signal.raised

/-! ### The beginning of a load -/

/-- The log line for a reload that takes the place of another one in the slot. -/
def takeoverLine (ticket : Nat) : LogLine :=
  ⟨.debug, "Reload " ++ Digits.numeral ticket ++ " cancels the reload in flight"⟩

/-- Puts a new reload into the slot. The one that was there is cancelled. -/
def takeSlot (s : Session) : Session :=
  let ticket := s.tickets + 1
  let cleared := match s.slot with
    | none => s
    | some _ => s.clearSlot.log (takeoverLine ticket)
  { cleared with tickets := ticket, slot := some ticket }

/-- A load that is not a reload gets its signal. -/
def giveSignal (s : Session) (signal : Signal) : Session :=
  { s with signals := (s.cycles + 1, signal) :: s.signals }

/-- Begins a load: it gets its number, and a reload the slot. -/
def launch (s : Session) (kind : Start) : Session × Load :=
  let (s, purpose) := match kind with
    | .reload => (s.takeSlot, Purpose.reload (s.tickets + 1))
    | .plain => (s.giveSignal ⟨false, false⟩, .direct ⟨false, false⟩)
    | .signalled signal => (s.giveSignal signal, .direct signal)
  let cycle := s.cycles + 1
  ({ s with cycles := cycle }.record (.began cycle purpose), ⟨cycle, purpose, .none⟩)

/-! ### The end of a load -/

/-- The log line for a view that is not published. -/
def discardLine (cycle : Nat) : LogLine :=
  ⟨.info, "Discarding reconcile cycle " ++ Digits.numeral cycle ++
    ": a newer reload has started"⟩

/-- Publishes the view of a reload, if there is no newer one. -/
def publish (s : Session) (ticket : Nat) (v : View) : Session × Result :=
  if s.tickets = ticket then ({ s with published := v :: s.published }, .ok v)
  else (s.log (discardLine v.cycle), .error (.superseded v.cycle))

/-- Ends a load. The view of a reload is published, unless a newer reload has started. -/
def close (s : Session) (l : Load) (result : Result) : Session × Progress :=
  let (s, result) := match l.purpose, result with
    | .reload ticket, .ok v => s.publish ticket v
    | _, _ => (s, result)
  (s.record (.ended l.cycle l.purpose result), .ended result)

/-! ### Loads by name -/

/-- Drops the load of a name, if there is one. -/
def drop (s : Session) (id : String) : Session :=
  match s.loads.lookup id with
  | none => s
  | some l =>
      { s with loads := s.loads.filter fun p => p.1 ≠ id }.record (.dropped l.cycle l.purpose)

/-- Keeps a load under a name. A load that had the name is dropped. -/
def keep (s : Session) (id : String) (l : Load) : Session :=
  let s := s.drop id
  { s with loads := (id, l) :: s.loads }

/-! ### Signals -/

/-- Something is done to the signal of a load, if it has one. -/
def moveSignal (s : Session) (cycle : Nat) (m : Signal.Move) : Session :=
  match s.signals.lookup cycle with
  | none => s
  | some signal =>
      { s with signals := (cycle, signal.move m) :: s.signals }.record (.signal cycle m)

/-! ### Hooks, subscribers and the source -/

/-- Arms hooks, in place of those that have not run yet. -/
def arm (s : Session) (hooks : List Hook) : Session := { s with hooks := hooks }

/-- Changes the source. -/
def withSource (s : Session) (f : Source → Source) : Session := { s with source := f s.source }

/-- Takes down that a subscriber knows of every view. -/
def subscribe (s : Session) (id : String) : Session :=
  { s with subscribers := (id, s.published.length) :: s.subscribers.filter fun p => p.1 ≠ id }

/-- Whether a view has been published that a subscriber does not know of, if there is such a
subscriber. -/
def hasNews? (s : Session) (id : String) : Option Bool :=
  (s.subscribers.lookup id).map (· ≠ s.published.length)

/-- A subscriber looks at the view. -/
def look (s : Session) (id : String) : Session :=
  match s.subscribers.lookup id with
  | none => s
  | some _ => s.subscribe id

end Session

end BridgeAudit
