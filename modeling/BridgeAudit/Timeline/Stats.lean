import BridgeAudit.Timeline.Entry

/-!
Counts of a cycle.

* `Stats`: how many records were fetched, rejected, dropped, shown by shape, and overdue.
* `Stats.of`: the counts of a timeline.
* `Stats.toJson`, `Stats.summary`: the counts for machines and for people.
-/

namespace BridgeAudit

/-- The counts of a cycle. -/
structure Stats where
  fetched : Nat
  rejected : Nat
  /-- Burns of other tokens. -/
  filteredOut : Nat
  /-- Entries of the timeline by shape. -/
  count : Category → Nat
  overdueBurns : Nat

namespace Stats

/-- The number of entries of a shape. -/
def countIn (timeline : List Entry) (c : Category) : Nat :=
  timeline.countP fun e => e.category = c

/-- The counts of a timeline. -/
def of (fetched rejected filteredOut : Nat) (timeline : List Entry) (now : Instant)
    (threshold : Int) : Stats where
  fetched := fetched
  rejected := rejected
  filteredOut := filteredOut
  count := countIn timeline
  overdueBurns := timeline.countP (Entry.isOverdue now threshold)

/-- The counts as JSON; a shape that does not occur is left out. -/
def toJson (s : Stats) : Json :=
  let shapes := Category.all.filter fun c => s.count c ≠ 0
  .object [("fetched", .ofNat s.fetched), ("rejected", .ofNat s.rejected),
    ("filtered_out", .ofNat s.filteredOut),
    ("per_category", .object (shapes.map fun c => (c.name, .ofNat (s.count c)))),
    ("overdue_burns", .ofNat s.overdueBurns)]

/-- The counts in one line. -/
def summary (s : Stats) : String :=
  let shapes := Category.all.map fun c => Digits.numeral (s.count c) ++ " " ++ c.name
  Digits.numeral s.fetched ++ " fetched, " ++ Digits.numeral s.rejected ++ " rejected, " ++
    Digits.numeral s.filteredOut ++ " other-token burns dropped: " ++ ", ".intercalate shapes ++
    if s.overdueBurns = 0 then "" else " (" ++ Digits.numeral s.overdueBurns ++ " overdue burns)"

end Stats

end BridgeAudit
