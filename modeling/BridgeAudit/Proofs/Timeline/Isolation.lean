import BridgeAudit.Proofs.Timeline.Balance

/-!
Raw records that do not decode keep to themselves.

* `Collections.insertAt`: one more item in a collection, at any place.
* `Collection.before`, `Collection.after`: the collections served before one and after it.
* `rejectionsIn`: the rejections among raw records of a collection.
* `refused_record_isolated`: a raw record that does not decode adds one rejection, in its place, and
  changes nothing else of a view than the two counts that tell of it.
-/

namespace BridgeAudit

/-! ### One more item -/

namespace Collection

/-- The collections that are served before one. -/
def before (c : Collection) : List Collection := all.takeWhile (· ≠ c)

/-- The collections that are served after one. -/
def after (c : Collection) : List Collection := (all.dropWhile (· ≠ c)).tail

lemma all_eq_append (c : Collection) : all = c.before ++ c :: c.after := by cases c <;> rfl

lemma ne_of_mem_before {c d : Collection} : d ∈ c.before → d ≠ c := by
  cases c <;> cases d <;> decide

lemma ne_of_mem_after {c d : Collection} : d ∈ c.after → d ≠ c := by
  cases c <;> cases d <;> decide

end Collection

namespace Collections

variable {α β : Type} (cs : Collections α) (c : Collection) (i : Nat) (a : α)

/-- One more item in a collection, behind the first `i` items that are there. -/
def insertAt : Collections α := cs.set c ((cs.get c).take i ++ a :: (cs.get c).drop i)

lemma get_insertAt_self :
    (cs.insertAt c i a).get c = (cs.get c).take i ++ a :: (cs.get c).drop i := by
  rw [insertAt, get_set, if_pos rfl]

lemma get_insertAt_of_ne {c d : Collection} (h : d ≠ c) :
    (cs.insertAt c i a).get d = cs.get d := by
  rw [insertAt, get_set, if_neg h]

/-- What passes over the new item does not see it. -/
lemma filterMap_insertAt {f : α → Option β} (h : f a = none) (d : Collection) :
    ((cs.insertAt c i a).get d).filterMap f = (cs.get d).filterMap f := by
  by_cases hd : d = c
  · rw [hd, get_insertAt_self, List.filterMap_append, List.filterMap_cons_none h,
      ← List.filterMap_append, List.take_append_drop]
  · rw [get_insertAt_of_ne _ _ _ hd]

/-- What is made of all collections, seen from one of them. -/
lemma flatMap_all (f : Collection → List α → List β) :
    (Collection.all.flatMap fun d => f d (cs.get d)) =
      (c.before.flatMap fun d => f d (cs.get d)) ++
        (f c (cs.get c) ++ c.after.flatMap fun d => f d (cs.get d)) := by
  rw [c.all_eq_append, List.flatMap_append, List.flatMap_cons]

/-- The new item is seen in its own collection only. -/
lemma flatMap_all_insertAt (f : Collection → List α → List β) :
    (Collection.all.flatMap fun d => f d ((cs.insertAt c i a).get d)) =
      (c.before.flatMap fun d => f d (cs.get d)) ++
        (f c ((cs.get c).take i ++ a :: (cs.get c).drop i) ++
          c.after.flatMap fun d => f d (cs.get d)) := by
  rw [flatMap_all _ c, get_insertAt_self]
  congr 1
  · refine List.flatMap_congr fun d hd => ?_
    rw [get_insertAt_of_ne _ _ _ (Collection.ne_of_mem_before hd)]
  · congr 1
    refine List.flatMap_congr fun d hd => ?_
    rw [get_insertAt_of_ne _ _ _ (Collection.ne_of_mem_after hd)]

lemma size_insertAt : (cs.insertAt c i a).size = cs.size + 1 := by
  have hlists := flatMap_all cs c fun _ items => items
  have hlists' := flatMap_all_insertAt cs c i a fun _ items => items
  rw [size, size, flatten, flatten, hlists, hlists']
  simp only [List.length_append, List.length_cons, List.length_take, List.length_drop]
  omega

end Collections

/-! ### The rejections -/

/-- The rejections among raw records of a collection. -/
def rejectionsIn (c : Collection) (vs : List Json) : List Rejection :=
  rejections c (vs.map fun v => (v, Reading.of v))

lemma rejectionsIn_append (c : Collection) (vs ws : List Json) :
    rejectionsIn c (vs ++ ws) = rejectionsIn c vs ++ rejectionsIn c ws := by
  rw [rejectionsIn, List.map_append, rejections, List.filterMap_append]
  rfl

lemma rejectionsIn_cons_of_refused {v : Json} {e : RecordError} (h : Record.parse v = .error e)
    (c : Collection) (vs : List Json) :
    rejectionsIn c (v :: vs) = ⟨c, e, v⟩ :: rejectionsIn c vs := by
  simp [rejectionsIn, rejections, Reading.of_refused h, Reading.asError]

lemma rejected_eq_rejectionsIn (raw : Collections Json) :
    (ingest raw).rejected = Collection.all.flatMap fun d => rejectionsIn d (raw.get d) := by
  rw [rejected_eq_flatMap, funext (rejectedIn_ingest raw)]
  rfl

/-- The rejections of what is served before a place in a collection. -/
def rejectedBefore (raw : Collections Json) (c : Collection) (i : Nat) : List Rejection :=
  (c.before.flatMap fun d => rejectionsIn d (raw.get d)) ++ rejectionsIn c ((raw.get c).take i)

/-- The rejections of what is served from a place in a collection on. -/
def rejectedBehind (raw : Collections Json) (c : Collection) (i : Nat) : List Rejection :=
  rejectionsIn c ((raw.get c).drop i) ++ c.after.flatMap fun d => rejectionsIn d (raw.get d)

variable (raw : Collections Json) (c : Collection) (i : Nat)

/-- Every rejection comes before the place or behind it. -/
lemma rejected_eq_append :
    (ingest raw).rejected = rejectedBefore raw c i ++ rejectedBehind raw c i := by
  have hcut : rejectionsIn c (raw.get c) =
      rejectionsIn c ((raw.get c).take i) ++ rejectionsIn c ((raw.get c).drop i) := by
    rw [← rejectionsIn_append, List.take_append_drop]
  rw [rejected_eq_rejectionsIn, raw.flatMap_all c, hcut, rejectedBefore, rejectedBehind]
  simp only [List.append_assoc]

variable {b : Json} {e : RecordError}

/-- A record that does not decode is rejected in its place. -/
lemma rejected_insertAt (hb : Record.parse b = .error e) :
    (ingest (raw.insertAt c i b)).rejected =
      rejectedBefore raw c i ++ ⟨c, e, b⟩ :: rejectedBehind raw c i := by
  rw [rejected_eq_rejectionsIn, raw.flatMap_all_insertAt, rejectionsIn_append,
    rejectionsIn_cons_of_refused hb, rejectedBefore, rejectedBehind]
  simp only [List.append_assoc, List.cons_append]

/-! ### The view -/

/-- A record that does not decode is none of the records. -/
lemma records_insertAt (hb : Record.parse b = .error e) :
    (ingest (raw.insertAt c i b)).records = (ingest raw).records := by
  refine Collections.ext fun d => ?_
  rw [(takenIn_get _ d).records_eq, (takenIn_get _ d).records_eq]
  exact raw.filterMap_insertAt c i b (toOption_of_error hb) d

/-- A record that does not decode has no entry. -/
lemma entries_insertAt (hb : Record.parse b = .error e) :
    (ingest (raw.insertAt c i b)).entries = (ingest raw).entries := by
  refine Collections.ext fun d => ?_
  rw [(takenIn_get _ d).entries_eq, (takenIn_get _ d).entries_eq, records_insertAt raw c i hb]

/-- **Bad records keep to themselves.** If one more raw record that does not decode is served,
anywhere in a collection, one more record is counted as fetched and as rejected, and nothing else of
the view is changed. There is one more rejection, behind those of all records that are served before
the new one, and the events tell of it in the same place; all other rejections and their events stay
as they are. -/
theorem refused_record_isolated (policy : Policy) (cycle : Nat) (raw : Collections Json)
    (now : Instant) (c : Collection) (i : Nat) {b : Json} {e : RecordError}
    (hb : Record.parse b = .error e) :
    let made := reconcile policy cycle raw now
    let made' := reconcile policy cycle (raw.insertAt c i b) now
    let before := rejectedBefore raw c i
    let behind := rejectedBehind raw c i
    made'.view =
        { made.view with
          stats :=
            { made.view.stats with
              fetched := made.view.stats.fetched + 1
              rejected := made.view.stats.rejected + 1 } } ∧
      made.rejected = before ++ behind ∧
      made'.rejected = before ++ ⟨c, e, b⟩ :: behind ∧
      made.events policy =
        before.map (Rejection.event cycle) ++ behind.map (Rejection.event cycle) ++
          [.completed cycle made.view.stats] ∧
      made'.events policy =
        before.map (Rejection.event cycle) ++ .rejected cycle c e.message b ::
          behind.map (Rejection.event cycle) ++ [.completed cycle made'.view.stats] := by
  intro made made' before behind
  have hrejected : made.rejected = before ++ behind := rejected_eq_append raw c i
  have hrejected' : made'.rejected = before ++ ⟨c, e, b⟩ :: behind := rejected_insertAt raw c i hb
  have hcount : (ingest (raw.insertAt c i b)).rejected.length =
      (ingest raw).rejected.length + 1 := by
    have hlength := congrArg List.length hrejected
    have hlength' := congrArg List.length hrejected'
    simp only [List.length_append, List.length_cons] at hlength hlength'
    exact hlength'.trans (congrArg (· + 1) hlength.symm)
  refine ⟨?_, hrejected, hrejected', ?_, ?_⟩
  · simp only [made, made', reconcile, records_insertAt raw c i hb, entries_insertAt raw c i hb,
      raw.size_insertAt, hcount]
    rfl
  · rw [← List.map_append, ← hrejected]
    exact events_eq raw policy cycle now
  · have hevents := events_eq (raw.insertAt c i b) policy cycle now
    rw [rejected_insertAt raw c i hb, List.map_append, List.map_cons] at hevents
    exact hevents

/-- A burn with a date and one without. -/
def twoBurns : Collections Json where
  unauditedBurns := [servedBurn 1 5 (.string "2023-02-26"), servedBurn 1 4 .null]

/-- A deposit that is no object is rejected between the two burns, which stay as they are. -/
theorem emptyDeposit_isolated :
    let bad : Json := .object [("deposit", .null)]
    let fault : RecordError := .malformed .unauditedDeposit (.wrongKind .null "struct DepositRecord")
    let made := reconcile {} 1 twoBurns ⟨0, 0⟩
    let made' := reconcile {} 1 (twoBurns.insertAt .unauditedBurns 1 bad) ⟨0, 0⟩
    Record.parse bad = .error fault ∧
      made'.view.timeline = made.view.timeline ∧ made'.view.totals = ⟨0, 9⟩ ∧
      made'.view.stats.fetched = 3 ∧ made'.view.stats.rejected = 2 ∧
      made'.rejected = ⟨.unauditedBurns, fault, bad⟩ :: made.rejected := by
  intro bad fault made made'
  have hbad : Record.parse bad = .error fault := by rfl
  obtain ⟨hview, hrejected, hrejected', -, -⟩ :=
    refused_record_isolated {} 1 twoBurns ⟨0, 0⟩ .unauditedBurns 1 hbad
  have hbefore : rejectedBefore twoBurns .unauditedBurns 1 = [] := by decide
  have htotals : made.view.totals = ⟨0, 9⟩ := by decide
  have hfetched : made.view.stats.fetched = 2 := by decide
  have hcount : made.view.stats.rejected = 1 := by decide
  rw [hbefore, List.nil_append] at hrejected hrejected'
  refine ⟨hbad, (congrArg View.timeline hview :), (congrArg View.totals hview :).trans htotals,
    (congrArg (·.stats.fetched) hview :).trans (congrArg (· + 1) hfetched),
    (congrArg (·.stats.rejected) hview :).trans (congrArg (· + 1) hcount), ?_⟩
  rw [hrejected]
  exact hrejected'

end BridgeAudit
