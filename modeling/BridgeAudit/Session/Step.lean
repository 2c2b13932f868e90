import BridgeAudit.Session.Poll

/-!
What can be done to a session from outside.

* `Session.start`, `Session.poll`: begin a load under a name, and look at the load of a name.
* `Step`, `Session.step`, `Session.run`: all that can be done as steps, and a list of steps one
  after another.
-/

namespace BridgeAudit

/-- What can be done to a session from outside. -/
abbrev Step := Act (List Hook)

namespace Session

/-- Starts a load under a name; a load that has the name is dropped first. The result is there
at once if the load ends at the first look. -/
def start (s : Session) (id : String) (kind : Start) : Session × Option Result :=
  startWith tell s id kind

/-- Looks at the load of a name, if there is one. -/
def poll (s : Session) (id : String) : Option (Session × Option Result) := pollWith tell s id

/-- Does a step. What cannot be done changes nothing. -/
def step (s : Session) (a : Step) : Session := actWith tell arm s a

/-- Does steps one after another. -/
def run (s : Session) (steps : List Step) : Session := steps.foldl step s

end Session

end BridgeAudit
