import BridgeAudit.Timeline.Entry

/-!
Taking in raw records.

* `Reading`: what becomes of one raw record: it is refused, or it decodes but cannot be
  dated, or it goes on the timeline.
* `Rejection`: a raw record that does not go on the timeline, as it was received.
* `ingest`: all records that decode, all entries and all rejections of six collections.
* `mergeRaw`: the timeline of six raw collections.

A record that decodes but cannot be dated is rejected from the timeline and still
counts as a record.
-/

namespace BridgeAudit

/-- What becomes of a raw record. -/
inductive Reading
  | refused (error : RecordError)
  | undated (record : Record) (error : DateError)
  | dated (record : Record) (entry : Entry)
  deriving Repr

namespace Reading

/-- Reads a raw record. -/
def of (raw : Json) : Reading :=
  match Record.parse raw with
  | .error e => refused e
  | .ok r =>
      match Entry.ofRecord r with
      | .error e => undated r e
      | .ok entry => dated r entry

/-- The record, if the raw one decodes. -/
def asRecord : Reading → Option Record
  | refused _ => none
  | undated r _ => some r
  | dated r _ => some r

/-- The entry, if the record decodes and can be dated. -/
def asEntry : Reading → Option Entry
  | dated _ e => some e
  | _ => none

/-- What keeps the record off the timeline. -/
def asError : Reading → Option RecordError
  | refused e => some e
  | undated _ e => some (.undated e)
  | dated _ _ => none

end Reading

/-- A raw record that does not go on the timeline. -/
structure Rejection where
  collection : Collection
  error : RecordError
  /-- The record as it was received. -/
  raw : Json
  deriving Repr

/-- What six raw collections come to. -/
structure Ingested where
  /-- Every record that decodes, dated or not. -/
  records : Collections Record
  /-- Every record that decodes and can be dated. -/
  entries : Collections Entry
  rejected : List Rejection
  deriving Repr

/-- The rejections among the readings of one collection. -/
def rejections (c : Collection) (readings : List (Json × Reading)) : List Rejection :=
  readings.filterMap fun p => p.2.asError.map fun e => ⟨c, e, p.1⟩

/-- Takes in six raw collections. -/
def ingest (raw : Collections Json) : Ingested :=
  let readings := raw.mapLists fun _ vs => vs.map fun v => (v, Reading.of v)
  { records := readings.mapLists fun _ ps => ps.filterMap (·.2.asRecord)
    entries := readings.mapLists fun _ ps => ps.filterMap (·.2.asEntry)
    rejected := Collection.all.flatMap fun c => rejections c (readings.get c) }

/-- A timeline, and the raw records that are not on it. -/
structure Merged where
  entries : List Entry
  rejected : List Rejection
  deriving Repr

/-- Takes in six raw collections and puts all their entries on one timeline. -/
def mergeRaw (raw : Collections Json) : Merged :=
  let taken := ingest raw
  { entries := merge taken.entries, rejected := taken.rejected }

end BridgeAudit
