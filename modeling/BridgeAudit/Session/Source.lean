import BridgeAudit.Auditor.Error
import BridgeAudit.Cycle.View

/-!
A source of raw records whose answers may take their time.

* `Source`: what each collection holds at the moment, which collections keep back their answer
  and which fail.
* `Arrived`: the collections that have answered so far.
* `Source.round`: all collections that have not answered yet are looked at once more, in their
  order; the first that fails ends the round.
-/

namespace BridgeAudit

/-- What is to be had from a collection at the moment. -/
inductive Delivery
  | pending
  | failed (e : AuditorError)
  | records (items : List Json)

/-- Six collections of raw records. -/
structure Source where
  name : String
  content : Collections Json
  /-- The collections that keep back their answer. -/
  held : List Collection := []
  /-- The collections that fail, the latest setting of each first. -/
  failing : List (Collection × AuditorError) := []
  /-- The collections that have been asked so far, once for each time. -/
  asked : List Collection := []

/-- The collections that have answered, with what they held at that moment. -/
abbrev Arrived := Collection → Option (List Json)

namespace Arrived

/-- Nothing has answered yet. -/
def none : Arrived := fun _ => .none

/-- A collection answers. -/
def put (got : Arrived) (c : Collection) (items : List Json) : Arrived :=
  fun d => if d = c then some items else got d

/-- Everything, once all collections have answered. -/
def complete? (got : Arrived) : Option (Collections Json) :=
  if Collection.all.all fun c => (got c).isSome then
    some (Collections.ofFn fun c => (got c).getD [])
  else .none

end Arrived

namespace Source

/-- What is to be had from a collection: one that keeps back its answer does not fail
either. -/
def deliver (s : Source) (c : Collection) : Delivery :=
  if s.held.contains c then .pending
  else match s.failing.lookup c with
    | some e => .failed e
    | none => .records (s.content.get c)

/-- Looks once at each of the given collections that has not answered yet. -/
def round (s : Source) : List Collection → Arrived → Except CycleError Arrived
  | [], got => .ok got
  | c :: cs, got =>
      if (got c).isSome then s.round cs got
      else match s.deliver c with
        | .pending => s.round cs got
        | .failed e => .error (.fetch c e)
        | .records items => s.round cs (got.put c items)

/-- The collections that a first round reaches: all up to the first that fails. -/
def reached (s : Source) : List Collection → List Collection
  | [] => []
  | c :: cs =>
      match s.deliver c with
      | .failed _ => [c]
      | _ => c :: s.reached cs

/-- Takes down that a first round asks the collections it reaches. -/
def countRound (s : Source) : Source :=
  { s with asked := s.asked ++ s.reached Collection.all }

/-- How often a collection has been asked. -/
def calls (s : Source) (c : Collection) : Nat := s.asked.count c

/-! ### Changes from outside -/

/-- From now on a collection keeps back its answer. -/
def hold (s : Source) (c : Collection) : Source := { s with held := c :: s.held }

/-- From now on a collection answers again. -/
def release (s : Source) (c : Collection) : Source :=
  { s with held := s.held.filter (· ≠ c) }

/-- From now on a collection fails. -/
def fail (s : Source) (c : Collection) (e : AuditorError) : Source :=
  { s with failing := (c, e) :: s.failing }

/-- From now on a collection does not fail any more. -/
def recover (s : Source) (c : Collection) : Source :=
  { s with failing := s.failing.filter fun p => p.1 ≠ c }

/-- From now on a collection holds the given records. -/
def serve (s : Source) (c : Collection) (items : List Json) : Source :=
  { s with content := s.content.set c items }

/-- A collection keeps back its answer. -/
def isHeld (s : Source) (c : Collection) : Bool := s.held.contains c

/-- A collection is set to fail. -/
def isFailing (s : Source) (c : Collection) : Bool := (s.failing.lookup c).isSome

end Source

end BridgeAudit
