import BridgeAudit.Record.Basic
import BridgeAudit.Calendar.Reader

/-!
The instant of a record.

* `Record.date`: the instant that the record's date field names.
-/

namespace BridgeAudit

/-- The instant a record is dated by. -/
def Record.date (r : Record) : Except DateError Instant :=
  match r.dateField with
  | (field, none) => .error (.missing field)
  | (field, some value) =>
      match Instant.parse value with
      | some t => .ok t
      | none => .error (.unparseable field value)

end BridgeAudit
