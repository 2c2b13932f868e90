import BridgeAudit.Record.Date
import BridgeAudit.Timeline.Collections

/-!
Entries of the timeline, and the timeline itself.

* `Entry`: a record with the instant it is dated by.
* `Entry.isOverdue`: a burn that has waited for its withdrawal for longer than a threshold.
* `merge`: all entries, the newest first; entries of one instant stay in the order
  in which the collections and the auditor list them.
-/

namespace BridgeAudit

/-- A record on the timeline. -/
structure Entry where
  occurredAt : Instant
  record : Record
  deriving DecidableEq, Repr

namespace Entry

/-- A record as an entry, if it can be dated. -/
def ofRecord (r : Record) : Except DateError Entry := r.date.map fun t => ⟨t, r⟩

/-- The shape of an entry's record. -/
def category (e : Entry) : Category := e.record.category

/-- A burn without a withdrawal is overdue once more than the threshold, in nanoseconds, has
passed. Nothing else is ever overdue. -/
def isOverdue (now : Instant) (threshold : Int) (e : Entry) : Bool :=
  e.category = .unauditedBurn && threshold < e.occurredAt.elapsed now

/-- An entry as JSON. -/
def toJson (e : Entry) : Json :=
  .object [("occurred_at", .string e.occurredAt.serialise), ("record", e.record.toJson)]

/-- An entry is not older than another one. -/
def notOlder (a b : Entry) : Bool := b.occurredAt.le a.occurredAt

end Entry

/-- Entries in the order of the timeline: the newest first, and those of one instant as they
stand. -/
def Entry.sort (entries : List Entry) : List Entry := entries.mergeSort Entry.notOlder

/-- The timeline of six collections of entries. -/
def merge (entries : Collections Entry) : List Entry := Entry.sort entries.flatten

end BridgeAudit
