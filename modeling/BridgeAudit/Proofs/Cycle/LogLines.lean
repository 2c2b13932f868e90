import BridgeAudit.Proofs.Record.Faults
import BridgeAudit.Proofs.Timeline.Balance

/-!
The log of a view.

* `LogLine.OnOneLine`: a log line with no line break in its message.
* `printed`: log lines as they are written, each one ended by a line feed.
* `lines_printed`: log lines without line breaks are read back one by one.
* `RecordError.unbroken_message`: the reason of a rejection has no line break in it, whatever the
  record is.
* `rejections_logged_on_one_line`: a rejection is one line of the log, and no record can add another
  one.
-/

namespace BridgeAudit

/-! ### Lines of the log -/

/-- The message of a log line does not break it. -/
def LogLine.OnOneLine (l : LogLine) : Prop := Unbroken l.message.toList

/-- Log lines as they are written. -/
def printed (log : List LogLine) : List Char := log.flatMap fun l => l.text.toList ++ ['\n']

lemma Level.unbroken_name (l : Level) : Unbroken l.name.toList := by cases l <;> decide

lemma LogLine.OnOneLine.text {l : LogLine} (h : l.OnOneLine) : Unbroken l.text.toList := by
  have hmessage : Unbroken l.message.toList := h
  simp [LogLine.text, l.level.unbroken_name, hmessage]

/-- What is written is read back line by line. -/
lemma lines_printed {log : List LogLine} (h : ∀ l ∈ log, l.OnOneLine) :
    lines (printed log) = (log.map fun l => l.text.toList) ++ [[]] := by
  have hunbroken : ∀ cs ∈ log.map fun l => l.text.toList, Unbroken cs := by
    rw [List.forall_mem_map]
    exact fun l hl => (h l hl).text
  rw [← lines_flatMap hunbroken, List.flatMap_map]
  rfl

/-! ### Reasons -/

lemma Category.unbroken_name (c : Category) : Unbroken c.name.toList := by cases c <;> decide

lemma Collection.unbroken_name (c : Collection) : Unbroken c.name.toList := by cases c <;> decide

lemma Record.unbroken_dateField (r : Record) : Unbroken r.dateField.1.toList := by
  cases r <;> simp only [dateField] <;> decide

/-- The value of a date field is quoted. -/
lemma Record.unbroken_of_date {r : Record} {e : DateError} (h : r.date = .error e) :
    Unbroken e.message.toList := by
  have hfield := r.unbroken_dateField
  unfold DateError.message
  unfold date at h
  split at h
  next field hdate =>
    cases h
    rw [hdate] at hfield
    simp [hfield]
  next field value hdate =>
    rw [hdate] at hfield
    split at h
    · cases h
    · cases h
      simp [hfield, Quoted.unbroken_write]

/-- **A reason is said on one line**, whichever of the three it is. -/
theorem Rejection.Justified.unbroken_message {x : Rejection} (h : x.Justified) :
    Unbroken x.error.message.toList := by
  obtain ⟨c, error, raw⟩ := x
  unfold RecordError.message
  cases error with
  | unclassifiable record =>
      simp [record.unbroken_compact]
  | malformed category fault =>
      have hfault : fault.Plain := Record.plain_of_decode h.2
      simp [category.unbroken_name, Fault.unbroken_message hfault]
  | undated e =>
      obtain ⟨r, -, hdate⟩ := h
      exact Record.unbroken_of_date hdate

/-! ### Events -/

/-- A rejection is logged on one line: its reason is one, and its record is printed on one. -/
lemma Rejection.Justified.onOneLine {x : Rejection} (h : x.Justified) (cycle : Nat) :
    (x.event cycle).logLine.OnOneLine := by
  simp [LogLine.OnOneLine, Rejection.event, Event.logLine, x.collection.unbroken_name,
    h.unbroken_message, x.raw.unbroken_compact]

lemma droppedLine_onOneLine (count : Nat) (token : UInt64) :
    (droppedLine count token).OnOneLine := by
  simp [LogLine.OnOneLine, droppedLine]

lemma Stats.unbroken_summary (s : Stats) : Unbroken s.summary.toList := by
  have hshape (c : Category) : Unbroken (Digits.numeral (s.count c) ++ " " ++ c.name).toList := by
    simp [c.unbroken_name]
  have hshapes : Unbroken (", ".intercalate (Category.all.map fun c =>
      Digits.numeral (s.count c) ++ " " ++ c.name)).toList :=
    unbroken_intercalate (by decide) (List.forall_mem_map.2 fun c _ => hshape c)
  have hoverdue : Unbroken (if s.overdueBurns = 0 then "" else
      " (" ++ Digits.numeral s.overdueBurns ++ " overdue burns)").toList := by
    split_ifs <;> simp
  simp only [summary, unbroken_toList_append, hshapes, hoverdue]
  simp

lemma completed_onOneLine (cycle : Nat) (stats : Stats) :
    (Event.completed cycle stats).logLine.OnOneLine := by
  simp [LogLine.OnOneLine, Event.logLine, stats.unbroken_summary]

lemma justified_of_mem_rejected {raw : Collections Json} {x : Rejection}
    (h : x ∈ (ingest raw).rejected) : x.Justified := by
  rw [rejected_eq_flatMap raw] at h
  obtain ⟨c, -, hx⟩ := List.mem_flatMap.1 h
  exact (takenIn_get raw c).justified x hx

/-- Every note of a view is one line. -/
lemma onOneLine_of_mem_notes {raw : Collections Json} {policy : Policy} {cycle : Nat}
    {now : Instant} {note : Note} (h : note ∈ (reconcile policy cycle raw now).notes policy) :
    note.line.OnOneLine := by
  rw [Reconciled.notes, List.mem_append, List.mem_append] at h
  rcases h with (hrejected | hdropped) | hcompleted
  · obtain ⟨x, hx, rfl⟩ := List.mem_map.1 hrejected
    exact (justified_of_mem_rejected hx).onOneLine _
  · split_ifs at hdropped
    · cases hdropped
    · obtain rfl := List.mem_singleton.1 hdropped
      exact droppedLine_onOneLine _ _
  · obtain rfl := List.mem_singleton.1 hcompleted
    exact completed_onOneLine _ _

/-- **Rejected records cannot forge log lines.** Whatever strings, keys and values the raw records
are made of, there is no line feed and no carriage return in the reason of a rejection, nor in the
message that is logged for it. While a view is made the rejections are logged first, and the log
that is written reads line by line as what has been logged. -/
theorem rejections_logged_on_one_line (raw : Collections Json) :
    (∀ x ∈ (ingest raw).rejected, Unbroken x.error.message.toList ∧ ∀ cycle, ∃ l,
      deliver [Handler.tracing] (x.event cycle) = [(Handler.tracing, .log l)] ∧
      Unbroken l.message.toList ∧ lines (printed [l]) = [l.text.toList, []]) ∧
    ∀ policy cycle now,
      let log := ((reconcile policy cycle raw now).notes policy).map Note.line
      ((ingest raw).rejected.map fun x => (x.event cycle).logLine) <+: log ∧
      lines (printed log) = (log.map fun l => l.text.toList) ++ [[]] := by
  refine ⟨fun x hx => ?_, fun policy cycle now => ⟨?_, ?_⟩⟩
  · have hx := justified_of_mem_rejected hx
    refine ⟨hx.unbroken_message, fun cycle => ⟨_, rfl, hx.onOneLine cycle, ?_⟩⟩
    exact lines_printed (List.forall_mem_singleton.2 (hx.onOneLine cycle))
  · rw [Reconciled.notes, List.append_assoc, List.map_append, List.map_map]
    exact List.prefix_append _ _
  · refine lines_printed ?_
    rw [List.forall_mem_map]
    exact fun note hnote => onOneLine_of_mem_notes hnote

/-- A line feed in the date of a burn is quoted in the reason why the burn is rejected. -/
theorem forged_line_is_quoted :
    let raw : Collections Json :=
      { unauditedBurns := [servedBurn 1 5 (.string "now\nERROR forged")] }
    ∃ x ∈ (ingest raw).rejected, Unbroken x.error.message.toList ∧
      x.error.message = "timestamp field burn.block_timestamp has unparseable value " ++
        "\"now\\nERROR forged\"" := by
  intro raw
  have hrejected : (ingest raw).rejected = [⟨.unauditedBurns,
      .undated (.unparseable "burn.block_timestamp" "now\nERROR forged"),
      servedBurn 1 5 (.string "now\nERROR forged")⟩] := by rfl
  have hx := hrejected ▸ List.mem_singleton_self _
  exact ⟨_, hx, ((rejections_logged_on_one_line raw).1 _ hx).1, by decide⟩

end BridgeAudit
