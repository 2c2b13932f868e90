import BridgeAudit.Cycle.Event
import BridgeAudit.Timeline.Totals
import BridgeAudit.Settings
import BridgeAudit.Auditor.Error

/-!
The outcome of a cycle.

* `View`: the timeline, the totals and the counts of one cycle.
* `reconcile`: the view of six raw collections, with the rejections.
* `Reconciled.notes`: what is told while the view is made: every rejection in order, the number of
  dropped burns if there are any, and the end of the cycle.
* `CycleError`: why a cycle has no view to show.
-/

namespace BridgeAudit

/-- The outcome of a cycle. -/
structure View where
  cycle : Nat
  generatedAt : Instant
  /-- All entries, the newest first. -/
  timeline : List Entry
  totals : Totals
  stats : Stats

/-- A view as JSON. -/
def View.toJson (v : View) : Json :=
  .object [("cycle", .ofNat v.cycle), ("generated_at", .string v.generatedAt.serialise),
    ("sorted_data", .array (v.timeline.map Entry.toJson)),
    ("total_awaiting_mint", .ofNat v.totals.awaitingMint),
    ("total_awaiting_unwrap", .ofNat v.totals.awaitingUnwrap), ("stats", v.stats.toJson)]

/-- The records without the burns of other tokens. -/
def retainToken (token : UInt64) (records : List Record) : List Record :=
  records.filter fun r => !r.isForeignBurn token

/-- A view together with the records that are not on its timeline. -/
structure Reconciled where
  view : View
  rejected : List Rejection

/-- Makes the view of six raw collections. Where burns are served, those of other tokens are
dropped from the timeline and from the totals. -/
def reconcile (policy : Policy) (cycle : Nat) (raw : Collections Json) (now : Instant) :
    Reconciled :=
  let taken := ingest raw
  let burns := retainToken policy.token taken.records.unauditedBurns
  let filteredOut := taken.records.unauditedBurns.length - burns.length
  let entries :=
    { taken.entries with
      unauditedBurns :=
        taken.entries.unauditedBurns.filter fun e => !e.record.isForeignBurn policy.token }
  let timeline := merge entries
  { view :=
      { cycle := cycle
        generatedAt := now
        timeline := timeline
        totals := Totals.of policy.token { taken.records with unauditedBurns := burns }
        stats :=
          Stats.of raw.size taken.rejected.length filteredOut timeline now policy.overdueAfter }
    rejected := taken.rejected }

/-- The event for a rejection. -/
def Rejection.event (cycle : Nat) (r : Rejection) : Event :=
  .rejected cycle r.collection r.error.message r.raw

/-- The log line for burns of other tokens. -/
def droppedLine (count : Nat) (token : UInt64) : LogLine :=
  ⟨.info, "Dropped " ++ Digits.numeral count ++ " unaudited burns of tokens other than " ++
    Digits.numeral token.toNat⟩

/-- What is told while a view is made. -/
def Reconciled.notes (r : Reconciled) (policy : Policy) : List Note :=
  (r.rejected.map fun x => .event (x.event r.view.cycle)) ++
    (if r.view.stats.filteredOut = 0 then []
      else [.log (droppedLine r.view.stats.filteredOut policy.token)]) ++
    [.event (.completed r.view.cycle r.view.stats)]

/-- Why a cycle has no view to show. -/
inductive CycleError
  /-- A collection could not be fetched. -/
  | fetch (collection : Collection) (source : AuditorError)
  | cancelled (cycle : Nat)
  /-- A newer reload has started in the meantime. -/
  | superseded (cycle : Nat)
  deriving Repr

/-- What is said of a cycle without a view. -/
def CycleError.message : CycleError → String
  | fetch collection source => "Failed to fetch " ++ collection.name ++ ": " ++ source.message
  | cancelled cycle => "Reconcile cycle " ++ Digits.numeral cycle ++ " was cancelled"
  | superseded cycle =>
      "Reconcile cycle " ++ Digits.numeral cycle ++ " was superseded by a newer reload"

end BridgeAudit
