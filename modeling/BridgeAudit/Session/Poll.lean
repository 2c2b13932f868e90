import BridgeAudit.Session.Basic

/-!
How a load goes on.

* `Session.resumeWith`: a look at a load: a cancelled one ends before any collection is looked at,
  and one whose last collection has answered makes its view.
* `Session.beginWith`: the beginning of a load, with the first look at it.
* `Session.actWith`: everything that can be done to a session, loads by name included.
* `Session.tell`: an event is told to all handlers, one after the other, and each of them runs its
  hook for it, if there is one. A hook may begin a reload itself, or make any other calls, while
  the load that told of the event is still in the middle of its look, and while the handlers
  behind have not heard of the event yet.

What to do with an event is a parameter of `resumeWith`, `beginWith` and `actWith`, so that `tell`
can hand itself to the reload and the calls of a hook. A hook is gone once it runs, and no hook
arms another one, so the number of hooks bounds how deep this goes.
-/

namespace BridgeAudit

namespace Session

/-- What is done with an event. -/
abbrev Telling := Session → Event → Session

/-- Takes a note. -/
def takeNote (telling : Telling) (s : Session) : Note → Session
  | .event e => telling s e
  | .log l => s.log l

/-- Makes the view of everything that a load has fetched, and ends it. -/
def reconcileWith (telling : Telling) (s : Session) (l : Load) (raw : Collections Json) :
    Session × Progress :=
  let made := reconcile s.policy l.cycle raw s.clock
  ((made.notes s.policy).foldl (takeNote telling) s).close l (.ok made.view)

/-- Looks at a load. -/
def resumeWith (telling : Telling) (s : Session) (l : Load) : Session × Progress :=
  if s.isCancelled l then
    (telling s (.cancelled l.cycle)).close l (.error (.cancelled l.cycle))
  else
    let s := s.record (.looked l.cycle s.source)
    match s.source.round Collection.all l.arrived with
    | .error e => (telling s (.failed l.cycle e.message)).close l (.error e)
    | .ok arrived =>
        match arrived.complete? with
        | none => (s, .pending { l with arrived := arrived })
        | some raw => reconcileWith telling s l raw

/-- All collections are asked, unless the load has been cancelled before. -/
def ask (s : Session) (l : Load) : Session :=
  if s.isCancelled l then s
  else { s.log (fetchingLine s.source.name) with source := s.source.countRound }

/-- Begins a load and looks at it once. -/
def beginWith (telling : Telling) (s : Session) (kind : Start) : Session × Progress :=
  let (s, l) := s.launch kind
  resumeWith telling ((telling s (.started l.cycle)).ask l) l

/-- Keeps a load under a name, if it is still pending. -/
def settle (id : String) : Session × Progress → Session × Option Result
  | (s, .ended result) => (s, some result)
  | (s, .pending l) => (s.keep id l, none)

/-! ### Acts -/

/-- Starts a load under a name; a load that has the name is dropped first. -/
def startWith (telling : Telling) (s : Session) (id : String) (kind : Start) :
    Session × Option Result :=
  settle id (beginWith telling (s.drop id) kind)

/-- The session while the load of a name is looked at: that load is not among the others. -/
def without (s : Session) (id : String) : Session :=
  { s with loads := s.loads.filter fun p => p.1 ≠ id }

/-- Looks at the load of a name, if there is one. -/
def pollWith (telling : Telling) (s : Session) (id : String) :
    Option (Session × Option Result) :=
  (s.loads.lookup id).map fun l => settle id (resumeWith telling (s.without id) l)

/-- Does an act. What cannot be done changes nothing. -/
def actWith {α : Type} (telling : Telling) (arming : Session → α → Session) (s : Session) :
    Act α → Session
  | .start id kind => (startWith telling s id kind).1
  | .poll id => ((pollWith telling s id).map (·.1)).getD s
  | .drop id => s.drop id
  | .signal cycle m => s.moveSignal cycle m
  | .hold c => s.withSource (·.hold c)
  | .release c => s.withSource (·.release c)
  | .fail c e => s.withSource (·.fail c e)
  | .recover c => s.withSource (·.recover c)
  | .serve c items => s.withSource (·.serve c items)
  | .cancel => s.cancel
  | .arm hooks => arming s hooks
  | .subscribe id => s.subscribe id
  | .look id => s.look id

/-- Makes a call. -/
def callWith (telling : Telling) (s : Session) (c : Call) : Session :=
  actWith telling (fun s _ => s) s c

/-! ### Hooks -/

/-- What comes of the reload of a hook. -/
def settleHook (keep : Option String) : Session × Progress → Session
  | (s, .ended result) => s.record (.hook (.ended result))
  | (s, .pending l) =>
      match keep with
      | none => (s.record (.dropped l.cycle l.purpose)).record (.hook .dropped)
      | some id => (s.keep id l).record (.hook .kept)

/-- Runs a hook. -/
def runHook (telling : Telling) (s : Session) : HookAction → Session
  | .cancel => s.cancel.record (.hook .cancelled)
  | .reload keep => settleHook keep (beginWith telling s .reload)
  | .calls calls => calls.foldl (callWith telling) s

/-- A handler hears of an event, and runs its hook for it, if there is one. -/
def hearWith (run : Session → HookAction → Session) (e : Event) (s : Session) :
    (Handler × Note) × Nat → Session
  | ((_, made), place) =>
      let s := s.record (.heard place e made)
      match s.hooks.find? (·.isDue place e) with
      | none => s
      | some k => run { s with hooks := s.hooks.eraseP (·.isDue place e) } k.action

/-- Takes an event down and tells all handlers of it, one after the other. -/
def tellWith (run : Session → HookAction → Session) : Telling := fun s e =>
  (deliver s.handlers e).zipIdx.foldl (hearWith run e) (s.record (.note (.event e)))

/-- Tells all handlers of an event; hooks within hooks go at most as deep as given. -/
def tellWithin : Nat → Telling
  | 0 => tellWith fun s _ => s
  | depth + 1 => tellWith (runHook (tellWithin depth))

/-- Tells all handlers of an event. -/
def tell : Telling := fun s e => tellWithin s.hooks.length s e

end Session

end BridgeAudit
