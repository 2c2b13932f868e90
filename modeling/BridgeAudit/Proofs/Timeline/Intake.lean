import BridgeAudit.Proofs.Timeline.Exact

/-!
What becomes of each raw record.

* `TakenIn`: what the raw records of a collection are taken in as, with a constructor for each
  thing that can become of a record.
* `Rejection.Justified`: the reason of a rejection is what is wrong with its record.
* `Ingested.rejectedIn`: the rejections of one collection.
* `Reconciled.events`: the events that are told while a view is made.
* `TakenIn.unique`: raw records are taken in in just one way.
* `ingest_accounts`: every raw record becomes an entry or a rejection of its collection, and the
  events tell of just these rejections.
-/

namespace BridgeAudit

/-- What the raw records of a collection are taken in as: the records, the entries and the
rejections, each in the order in which the raw records are served. -/
inductive TakenIn (c : Collection) :
    List Json → List Record → List Entry → List Rejection → Prop
  | nil : TakenIn c [] [] [] []
  /-- The record decodes and can be dated. -/
  | shown {v r t vs rs es xs} (hr : Record.parse v = .ok r) (ht : r.date = .ok t)
      (rest : TakenIn c vs rs es xs) : TakenIn c (v :: vs) (r :: rs) (⟨t, r⟩ :: es) xs
  /-- The record decodes but cannot be dated. -/
  | undated {v r e vs rs es xs} (hr : Record.parse v = .ok r) (he : r.date = .error e)
      (rest : TakenIn c vs rs es xs) :
      TakenIn c (v :: vs) (r :: rs) es (⟨c, .undated e, v⟩ :: xs)
  /-- The record does not decode. -/
  | refused {v e vs rs es xs} (he : Record.parse v = .error e) (rest : TakenIn c vs rs es xs) :
      TakenIn c (v :: vs) rs es (⟨c, e, v⟩ :: xs)

/-- The reason of a rejection is what is wrong with its record. -/
def Rejection.Justified (x : Rejection) : Prop :=
  match x.error with
  | .unclassifiable v => v = x.raw.snakeKeys ∧ classify? v = none
  | .malformed category fault =>
      classify? x.raw.snakeKeys = some category ∧
        Record.decode category x.raw.snakeKeys = .error fault
  | .undated e => ∃ r, Record.parse x.raw = .ok r ∧ r.date = .error e

/-- The rejections of one collection. -/
def Ingested.rejectedIn (taken : Ingested) (c : Collection) : List Rejection :=
  taken.rejected.filter fun x => x.collection = c

/-- The event that a note tells of. -/
def Note.event? : Note → Option Event
  | event e => some e
  | log _ => none

/-- The events that are told while a view is made. -/
def Reconciled.events (made : Reconciled) (policy : Policy) : List Event :=
  (made.notes policy).filterMap Note.event?

/-! ### One record -/

/-- A record that does not decode has none of the six shapes, or a fault. -/
lemma Rejection.justified_of_refused {v : Json} {e : RecordError} (h : Record.parse v = .error e)
    (c : Collection) : (⟨c, e, v⟩ : Rejection).Justified := by
  -- the reason is read off the branch of `Record.parse` that has been taken
  simp only [Record.parse] at h
  split at h
  next hshape =>
    obtain rfl := Except.error.inj h
    exact ⟨rfl, hshape⟩
  next category hshape =>
    split at h
    · cases h
    next fault hfault =>
      obtain rfl := Except.error.inj h
      exact ⟨hshape, hfault⟩

lemma toOption_of_ok {ε α : Type} {x : Except ε α} {a : α} (h : x = .ok a) :
    x.toOption = some a := by
  rw [h]
  rfl

lemma toOption_of_error {ε α : Type} {x : Except ε α} {e : ε} (h : x = .error e) :
    x.toOption = none := by
  rw [h]
  rfl

lemma Entry.ofRecord_eq_ok {r : Record} {t : Instant} (ht : r.date = .ok t) :
    Entry.ofRecord r = .ok ⟨t, r⟩ := by
  rw [Entry.ofRecord, ht]
  rfl

lemma Entry.ofRecord_eq_error {r : Record} {e : DateError} (he : r.date = .error e) :
    Entry.ofRecord r = .error e := by
  rw [Entry.ofRecord, he]
  rfl

lemma Reading.of_refused {v : Json} {e : RecordError} (h : Record.parse v = .error e) :
    Reading.of v = .refused e := by
  simp only [Reading.of, h]

lemma Reading.of_undated {v : Json} {r : Record} {e : DateError} (hr : Record.parse v = .ok r)
    (he : r.date = .error e) : Reading.of v = .undated r e := by
  simp only [Reading.of, hr, Entry.ofRecord_eq_error he]

lemma Reading.of_dated {v : Json} {r : Record} {t : Instant} (hr : Record.parse v = .ok r)
    (ht : r.date = .ok t) : Reading.of v = .dated r ⟨t, r⟩ := by
  simp only [Reading.of, hr, Entry.ofRecord_eq_ok ht]

/-! ### One collection -/

section Collection

variable {c : Collection} {vs : List Json} {rs : List Record} {es : List Entry}
  {xs : List Rejection}

/-- Reading the raw records one by one takes them in. -/
lemma takenIn_readings (c : Collection) (vs : List Json) :
    TakenIn c vs (vs.filterMap fun v => (Reading.of v).asRecord)
      (vs.filterMap fun v => (Reading.of v).asEntry)
      (rejections c (vs.map fun v => (v, Reading.of v))) := by
  induction vs with
  | nil => exact .nil
  | cons v vs ih =>
      cases hr : Record.parse v with
      | error e =>
          simpa [rejections, Reading.of_refused hr, Reading.asRecord, Reading.asEntry,
            Reading.asError] using TakenIn.refused hr ih
      | ok r =>
          cases hd : r.date with
          | error e =>
              simpa [rejections, Reading.of_undated hr hd, Reading.asRecord, Reading.asEntry,
                Reading.asError] using TakenIn.undated hr hd ih
          | ok t =>
              simpa [rejections, Reading.of_dated hr hd, Reading.asRecord, Reading.asEntry,
                Reading.asError] using TakenIn.shown hr hd ih

namespace TakenIn

/-- The records are all values that decode. -/
lemma records_eq (h : TakenIn c vs rs es xs) :
    rs = vs.filterMap fun v => (Record.parse v).toOption := by
  induction h with
  | nil => rfl
  | shown hr _ _ ih => simp only [List.filterMap_cons, toOption_of_ok hr, ← ih]
  | undated hr _ _ ih => simp only [List.filterMap_cons, toOption_of_ok hr, ← ih]
  | refused he _ ih => simp only [List.filterMap_cons, toOption_of_error he, ← ih]

/-- The entries are all records that can be dated. -/
lemma entries_eq (h : TakenIn c vs rs es xs) :
    es = rs.filterMap fun r => (Entry.ofRecord r).toOption := by
  induction h with
  | nil => rfl
  | shown _ ht _ ih =>
      simp only [List.filterMap_cons, toOption_of_ok (Entry.ofRecord_eq_ok ht), ← ih]
  | undated _ he _ ih =>
      simp only [List.filterMap_cons, toOption_of_error (Entry.ofRecord_eq_error he), ← ih]
  | refused _ _ ih => exact ih

/-- What is rejected are all values that do not decode to a record with a date. -/
lemma rejected_eq (h : TakenIn c vs rs es xs) :
    xs = rejections c (vs.map fun v => (v, Reading.of v)) := by
  induction h with
  | nil => rfl
  | shown hr ht _ ih => simpa [rejections, Reading.of_dated hr ht, Reading.asError] using ih
  | undated hr he _ ih => simpa [rejections, Reading.of_undated hr he, Reading.asError] using ih
  | refused he _ ih => simpa [rejections, Reading.of_refused he, Reading.asError] using ih

/-- Rejections carry the values as they were received. -/
lemma raw_eq (h : TakenIn c vs rs es xs) :
    xs.map (·.raw) = vs.filter fun v => (Entry.read v).isNone := by
  induction h with
  | nil => rfl
  | shown hr ht _ ih => simp [Entry.read, hr, ht, ih]
  | undated hr he _ ih => simp [Entry.read, hr, he, ih]
  | refused he _ ih => simp [Entry.read, he, ih]

lemma collection_eq (h : TakenIn c vs rs es xs) : ∀ x ∈ xs, x.collection = c := by
  induction h with
  | nil => simp
  | shown _ _ _ ih => exact ih
  | undated _ _ _ ih => simpa using ih
  | refused _ _ ih => simpa using ih

lemma justified (h : TakenIn c vs rs es xs) : ∀ x ∈ xs, x.Justified := by
  induction h with
  | nil => simp
  | shown _ _ _ ih => exact ih
  | undated hr he _ ih => exact List.forall_mem_cons.mpr ⟨⟨_, hr, he⟩, ih⟩
  | refused he _ ih => exact List.forall_mem_cons.mpr ⟨Rejection.justified_of_refused he c, ih⟩

/-- Raw records are taken in in just one way. -/
theorem unique {rs' es' xs'} (h : TakenIn c vs rs es xs) (h' : TakenIn c vs rs' es' xs') :
    rs = rs' ∧ es = es' ∧ xs = xs' := by
  have hrecords : rs = rs' := h.records_eq.trans h'.records_eq.symm
  have hentries : es = es' := by rw [h.entries_eq, h'.entries_eq, hrecords]
  exact ⟨hrecords, hentries, h.rejected_eq.trans h'.rejected_eq.symm⟩

/-- Each raw record is either on the timeline or rejected. -/
lemma length_eq (h : TakenIn c vs rs es xs) : es.length + xs.length = vs.length := by
  induction h with
  | nil => rfl
  | shown _ _ _ ih =>
      simp only [List.length_cons]
      omega
  | undated _ _ _ ih =>
      simp only [List.length_cons]
      omega
  | refused _ _ ih =>
      simp only [List.length_cons]
      omega

end TakenIn

end Collection

/-! ### All collections -/

variable (raw : Collections Json)

lemma Collections.size_eq_sum {α : Type} (cs : Collections α) :
    cs.size = (Collection.all.map fun c => (cs.get c).length).sum := by
  rw [size, flatten, List.length_flatMap]

/-- What belongs to one collection is found again among what belongs to all. -/
lemma filter_flatMap_all {f : Collection → List Rejection}
    (hf : ∀ c, ∀ x ∈ f c, x.collection = c) (c : Collection) :
    ((Collection.all.flatMap f).filter fun x => x.collection = c) = f c := by
  have hown : (f c).filter (fun x => x.collection = c) = f c :=
    List.filter_eq_self.mpr fun x hx => decide_eq_true (hf c x hx)
  -- what belongs to another collection is not among it
  have hother : ∀ d, d ≠ c → (f d).filter (fun x => x.collection = c) = [] := fun d hd =>
    List.filter_eq_nil_iff.mpr fun x hx => by simpa [hf d x hx] using hd
  cases c <;> simp [Collection.all, List.filter_append, hown, hother]

lemma rejectedIn_ingest (c : Collection) : (ingest raw).rejectedIn c =
    rejections c ((raw.get c).map fun v => (v, Reading.of v)) := by
  have hall : (ingest raw).rejected = Collection.all.flatMap fun d =>
      rejections d ((raw.get d).map fun v => (v, Reading.of v)) := by
    simp [ingest]
  rw [Ingested.rejectedIn, hall]
  exact filter_flatMap_all (fun d => (takenIn_readings d (raw.get d)).collection_eq) c

/-- The rejections come by collections. -/
lemma rejected_eq_flatMap :
    (ingest raw).rejected = Collection.all.flatMap (ingest raw).rejectedIn := by
  rw [funext (rejectedIn_ingest raw)]
  simp [ingest]

/-- Each collection is taken in by itself. -/
lemma takenIn_get (c : Collection) :
    TakenIn c (raw.get c) ((ingest raw).records.get c) ((ingest raw).entries.get c)
      ((ingest raw).rejectedIn c) := by
  rw [rejectedIn_ingest]
  simpa [ingest, List.filterMap_map, Function.comp_def] using takenIn_readings c (raw.get c)

/-- No record is lost and none is taken in twice. -/
lemma size_entries_add_rejected :
    (ingest raw).entries.size + (ingest raw).rejected.length = raw.size := by
  rw [rejected_eq_flatMap, List.length_flatMap, Collections.size_eq_sum, Collections.size_eq_sum,
    ← List.sum_map_add]
  exact congrArg List.sum (List.map_congr_left fun c _ => (takenIn_get raw c).length_eq)

/-! ### Events -/

lemma events_eq (policy : Policy) (cycle : Nat) (now : Instant) :
    (reconcile policy cycle raw now).events policy =
      ((ingest raw).rejected.map fun x =>
          .rejected cycle x.collection x.error.message x.raw) ++
        [.completed cycle (reconcile policy cycle raw now).view.stats] := by
  have hdropped : ∀ s : Stats, (if s.filteredOut = 0 then [] else
      [Note.log (droppedLine s.filteredOut policy.token)]).filterMap Note.event? = [] := fun s => by
    split <;> rfl
  have htold : ∀ (made : Reconciled), (made.rejected.map fun x =>
      Note.event (x.event made.view.cycle)).filterMap Note.event? =
        made.rejected.map fun x => x.event made.view.cycle := fun made => by
    rw [List.filterMap_map]
    exact congrFun List.filterMap_eq_map _
  simp only [Reconciled.events, Reconciled.notes, List.filterMap_append, hdropped, htold,
    List.append_nil]
  rfl

/-- **No record is lost, taken in twice or misreported.** Each raw record becomes one entry of its
collection, or else one rejection with its collection, the value as it was received and what is
wrong with it. In each collection the records are all values that decode, the entries those records
that can be dated, and the rejections all other values, as they are served. While a view is made the
events tell of each rejection in its turn, and then of the counts of the view. -/
theorem ingest_accounts (raw : Collections Json) :
    let taken := ingest raw
    (∀ c rs es xs, TakenIn c (raw.get c) rs es xs ↔
        rs = taken.records.get c ∧ es = taken.entries.get c ∧ xs = taken.rejectedIn c) ∧
      taken.rejected = Collection.all.flatMap taken.rejectedIn ∧
      taken.entries.size + taken.rejected.length = raw.size ∧
      (∀ c, taken.records.get c = (raw.get c).filterMap fun v => (Record.parse v).toOption) ∧
      (∀ c, taken.entries.get c =
        (taken.records.get c).filterMap fun r => (Entry.ofRecord r).toOption) ∧
      (∀ c, (taken.rejectedIn c).map (·.raw) =
        (raw.get c).filter fun v => (Entry.read v).isNone) ∧
      (∀ x ∈ taken.rejected, x.Justified) ∧
      ∀ policy cycle now,
        (reconcile policy cycle raw now).events policy =
          (taken.rejected.map fun x => .rejected cycle x.collection x.error.message x.raw) ++
            [.completed cycle (reconcile policy cycle raw now).view.stats] := by
  intro taken
  have htaken : ∀ c, TakenIn c (raw.get c) (taken.records.get c) (taken.entries.get c)
      (taken.rejectedIn c) := takenIn_get raw
  refine ⟨fun c rs es xs => ⟨fun h => h.unique (htaken c), ?_⟩, rejected_eq_flatMap raw,
    size_entries_add_rejected raw, fun c => (htaken c).records_eq, fun c => (htaken c).entries_eq,
    fun c => (htaken c).raw_eq, fun x hx => ?_, events_eq raw⟩
  · rintro ⟨rfl, rfl, rfl⟩
    exact htaken c
  · rw [rejected_eq_flatMap raw] at hx
    obtain ⟨c, -, hx⟩ := List.mem_flatMap.mp hx
    exact (htaken c).justified x hx

end BridgeAudit
