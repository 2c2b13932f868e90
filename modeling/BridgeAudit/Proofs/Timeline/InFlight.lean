import BridgeAudit.Proofs.Timeline.Balance

/-!
The totals and the timeline.

The totals run over all records that decode, the timeline has only those that can be dated. The two
differ by the records that are rejected for want of a date alone.

* `amountIn`: the sum of the amounts of the records of a shape.
* `Rejection.record?`: the record of a rejection that lacks nothing but a usable date.
* `TakenIn.records_perm`: every record is on an entry, or it is the record of such a rejection.
* `ServedOnlyIn`: the records of a shape come in one collection only.
* `totals_agree`: the totals are the sums of what is shown and of what lacks a date.
-/

namespace BridgeAudit

/-- The sum of the amounts of the records of a shape. -/
def amountIn (shape : Category) (rs : List Record) : Nat :=
  ((rs.filter fun r => r.category = shape).map fun r => r.amount.toNat).sum

/-- The record of a rejection that lacks nothing but a usable date. -/
def Rejection.record? (x : Rejection) : Option Record :=
  match x.error with
  | .undated _ => (Record.parse x.raw).toOption
  | _ => none

/-- A raw record that decodes to a record of the shape. -/
def decodesTo (shape : Category) (raw : Json) : Bool :=
  match Record.parse raw with
  | .ok r => r.category = shape
  | .error _ => false

/-- The records of a shape come in one collection only. -/
def ServedOnlyIn (home : Collection) (shape : Category) (raw : Collections Json) : Prop :=
  ∀ c, ∀ v ∈ raw.get c, decodesTo shape v → c = home

/-! ### Sums of amounts -/

section Amounts

variable {shape : Category} {rs rs' : List Record}

lemma amountIn_cons (r : Record) : amountIn shape (r :: rs) =
    (if r.category = shape then r.amount.toNat else 0) + amountIn shape rs := by
  by_cases h : r.category = shape <;> simp [amountIn, h]

lemma amountIn_append : amountIn shape (rs ++ rs') = amountIn shape rs + amountIn shape rs' := by
  simp [amountIn]

lemma amountIn_perm (h : rs.Perm rs') : amountIn shape rs = amountIn shape rs' :=
  ((h.filter _).map _).sum_eq

lemma amountIn_eq_zero (h : ∀ r ∈ rs, r.category ≠ shape) : amountIn shape rs = 0 := by
  have hnone : rs.filter (fun r => r.category = shape) = [] :=
    List.filter_eq_nil_iff.mpr fun r hr => by simpa using h r hr
  rw [amountIn, hnone]
  rfl

/-- Only the collection where a shape is at home adds to its sum. -/
lemma amountIn_flatMap_all {f : Collection → List Record} {home : Collection}
    (h : ∀ c, c ≠ home → ∀ r ∈ f c, r.category ≠ shape) :
    amountIn shape (Collection.all.flatMap f) = amountIn shape (f home) := by
  have hzero : ∀ c, c ≠ home → amountIn shape (f c) = 0 := fun c hc => amountIn_eq_zero (h c hc)
  cases home <;> simp [Collection.all, amountIn_append, hzero]

/-- The deposits that wait for a mint. -/
lemma mintSum_eq (rs : List Record) : Totals.mintSum rs = amountIn .unauditedDeposit rs := by
  induction rs with
  | nil => rfl
  | cons r rs ih =>
      rw [amountIn_cons, ← ih]
      cases r <;> simp [Totals.mintSum, Record.awaitedMint, Record.category, Record.amount]

/-- The burns of the token that wait for a withdrawal. -/
lemma unwrapSum_eq (token : UInt64) (rs : List Record) : Totals.unwrapSum token rs =
    amountIn .unauditedBurn (rs.filter fun r => r.tokenId = some token) := by
  induction rs with
  | nil => rfl
  | cons r rs ih =>
      have hcons : Totals.unwrapSum token (r :: rs) =
          r.awaitedUnwrap token + Totals.unwrapSum token rs := rfl
      rw [hcons, ih, List.filter_cons]
      cases r with
      | unauditedBurn b =>
          by_cases h : b.burn.tokenId = token <;>
            simp [Record.awaitedUnwrap, Record.tokenId, h, amountIn_cons, Record.category,
              Record.amount]
      | _ => simp only [Record.awaitedUnwrap]; split <;> simp [amountIn_cons, Record.category]

/-- Among burns, those of the token are the ones that are not of another token. -/
lemma amountIn_filter_token (token : UInt64) (rs : List Record) :
    amountIn .unauditedBurn (rs.filter fun r => !r.isForeignBurn token) =
      amountIn .unauditedBurn (rs.filter fun r => r.tokenId = some token) := by
  simp only [amountIn, List.filter_filter]
  congr 2
  refine List.filter_congr fun r _ => ?_
  cases r <;> simp [Record.category, Record.isForeignBurn, Record.tokenId]

/-- Dropping the burns of other tokens first does not change the sum. -/
lemma unwrapSum_retainToken (token : UInt64) (rs : List Record) :
    Totals.unwrapSum token (retainToken token rs) = Totals.unwrapSum token rs := by
  rw [unwrapSum_eq, unwrapSum_eq, ← amountIn_filter_token, ← amountIn_filter_token, retainToken,
    List.filter_filter]
  simp only [Bool.and_self]

end Amounts

/-! ### Records with and without a date -/

section Collection

variable {c : Collection} {vs : List Json} {rs : List Record} {es : List Entry}
  {xs : List Rejection}

lemma Rejection.record?_of_undated {v : Json} {r : Record} (h : Record.parse v = .ok r)
    (e : DateError) (c : Collection) : (⟨c, .undated e, v⟩ : Rejection).record? = some r :=
  toOption_of_ok h

lemma Rejection.record?_of_refused {v : Json} {e : RecordError} (h : Record.parse v = .error e)
    (c : Collection) : (⟨c, e, v⟩ : Rejection).record? = none := by
  cases e with
  | undated _ => exact toOption_of_error h
  | _ => rfl

/-- Every record is on an entry, or it is rejected for want of a date alone. -/
lemma TakenIn.records_perm (h : TakenIn c vs rs es xs) :
    rs.Perm (es.map (·.record) ++ xs.filterMap Rejection.record?) := by
  induction h with
  | nil => exact .nil
  | shown _ _ _ ih => exact ih.cons _
  | undated hr _ _ ih =>
      -- the record leads the rejections, and so it stands behind all entries
      rw [List.filterMap_cons_some (Rejection.record?_of_undated hr _ _)]
      exact (ih.cons _).trans List.perm_middle.symm
  | refused he _ ih => rwa [List.filterMap_cons_none (Rejection.record?_of_refused he _)]

end Collection

/-! ### All collections -/

variable (policy : Policy) (cycle : Nat) {raw : Collections Json} (now : Instant)
  {home : Collection} {shape : Category}

lemma ServedOnlyIn.category_ne (h : ServedOnlyIn home shape raw) {c : Collection} (hc : c ≠ home)
    {r : Record} (hr : r ∈ (ingest raw).records.get c) : r.category ≠ shape := by
  rw [(takenIn_get raw c).records_eq] at hr
  obtain ⟨v, hv, hvr⟩ := List.mem_filterMap.mp hr
  intro hshape
  refine hc (h c v hv ?_)
  rw [decodesTo]
  cases hparse : Record.parse v with
  | error e => simp [toOption_of_error hparse] at hvr
  | ok r' =>
      obtain rfl := Option.some.inj ((toOption_of_ok hparse).symm.trans hvr)
      exact decide_eq_true hshape

/-- The shown records of a shape that comes in one collection only. -/
lemma ServedOnlyIn.amountIn_timeline (h : ServedOnlyIn home shape raw) :
    amountIn shape ((reconcile policy cycle raw now).view.timeline.map (·.record)) =
      amountIn shape ((((ingest raw).shown policy.token).get home).map (·.record)) := by
  have hperm := (timeline_perm policy cycle raw now).map Entry.record
  rw [amountIn_perm hperm, Collections.flatten, List.map_flatMap]
  refine amountIn_flatMap_all fun c hc r hr => h.category_ne hc ?_
  have hentry : r ∈ ((ingest raw).entries.get c).map (·.record) := by
    rw [get_shown] at hr
    split at hr
    · exact List.map_subset _ (List.filter_subset_self _) hr
    · exact hr
  exact (takenIn_get raw c).records_perm.mem_iff.mpr (List.mem_append_left _ hentry)

/-- The records without a date of a shape that comes in one collection only. -/
lemma ServedOnlyIn.amountIn_undated (h : ServedOnlyIn home shape raw) (p : Record → Bool) :
    amountIn shape (((ingest raw).rejected.filterMap Rejection.record?).filter p) =
      amountIn shape ((((ingest raw).rejectedIn home).filterMap Rejection.record?).filter p) := by
  rw [rejected_eq_flatMap, List.filterMap_flatMap, List.filter_flatMap]
  refine amountIn_flatMap_all fun c hc r hr => h.category_ne hc ?_
  have hundated := (List.mem_filter.mp hr).1
  exact (takenIn_get raw c).records_perm.mem_iff.mpr (List.mem_append_right _ hundated)

/-- All deposits without a mint, dated or not. -/
lemma awaitingMint_eq (raw : Collections Json) :
    (reconcile policy cycle raw now).view.totals.awaitingMint =
      amountIn .unauditedDeposit
          (((ingest raw).entries.get .unauditedDeposits).map (·.record)) +
        amountIn .unauditedDeposit
          (((ingest raw).rejectedIn .unauditedDeposits).filterMap Rejection.record?) := by
  have hrecords := (takenIn_get raw .unauditedDeposits).records_perm
  calc (reconcile policy cycle raw now).view.totals.awaitingMint
      = Totals.mintSum ((ingest raw).records.get .unauditedDeposits) := rfl
    _ = amountIn .unauditedDeposit ((ingest raw).records.get .unauditedDeposits) := mintSum_eq _
    _ = _ := (amountIn_perm hrecords).trans amountIn_append

/-- All burns of the token without a withdrawal, dated or not. -/
lemma awaitingUnwrap_eq (raw : Collections Json) :
    (reconcile policy cycle raw now).view.totals.awaitingUnwrap =
      amountIn .unauditedBurn
          ((((ingest raw).shown policy.token).get .unauditedBurns).map (·.record)) +
        amountIn .unauditedBurn
          ((((ingest raw).rejectedIn .unauditedBurns).filterMap Rejection.record?).filter
            fun r => r.tokenId = some policy.token) := by
  have hrecords := (takenIn_get raw .unauditedBurns).records_perm
  have hshown : (((ingest raw).shown policy.token).get .unauditedBurns).map Entry.record =
      (((ingest raw).entries.get .unauditedBurns).map Entry.record).filter
        fun r => !r.isForeignBurn policy.token := by
    rw [get_shown, if_pos rfl, List.filter_map]
    rfl
  calc (reconcile policy cycle raw now).view.totals.awaitingUnwrap
      = Totals.unwrapSum policy.token
          (retainToken policy.token ((ingest raw).records.get .unauditedBurns)) := rfl
    _ = amountIn .unauditedBurn (((ingest raw).records.get .unauditedBurns).filter
          fun r => r.tokenId = some policy.token) := by
        rw [unwrapSum_retainToken, unwrapSum_eq]
    _ = _ := by
        rw [amountIn_perm (hrecords.filter _), List.filter_append, amountIn_append, hshown,
          amountIn_filter_token]

/-- **The totals agree with the timeline.** If deposits come only where deposits are served, and
burns only where burns are, each total is the sum of the amounts on the timeline and of those that
are rejected for want of a date alone, among the burns those of the token. If none is rejected for
that, each total is just the sum of what is shown. -/
theorem totals_agree (policy : Policy) (cycle : Nat) (raw : Collections Json) (now : Instant)
    (hdeposits : ServedOnlyIn .unauditedDeposits .unauditedDeposit raw)
    (hburns : ServedOnlyIn .unauditedBurns .unauditedBurn raw) :
    let made := reconcile policy cycle raw now
    let shown := made.view.timeline.map (·.record)
    let undated := made.rejected.filterMap Rejection.record?
    made.view.totals.awaitingMint =
        amountIn .unauditedDeposit shown + amountIn .unauditedDeposit undated ∧
      made.view.totals.awaitingUnwrap =
        amountIn .unauditedBurn shown +
          amountIn .unauditedBurn (undated.filter fun r => r.tokenId = some policy.token) ∧
      ((∀ x ∈ made.rejected, ∀ e, x.error ≠ .undated e) →
        made.view.totals.awaitingMint = amountIn .unauditedDeposit shown ∧
          made.view.totals.awaitingUnwrap = amountIn .unauditedBurn shown) := by
  intro made shown undated
  have hrejected : undated = (ingest raw).rejected.filterMap Rejection.record? := rfl
  have hmint : made.view.totals.awaitingMint =
      amountIn .unauditedDeposit shown + amountIn .unauditedDeposit undated := by
    have hundated := hdeposits.amountIn_undated fun _ => true
    rw [List.filter_true, List.filter_true] at hundated
    rw [hdeposits.amountIn_timeline, hrejected, hundated]
    exact awaitingMint_eq policy cycle now raw
  have hunwrap : made.view.totals.awaitingUnwrap =
      amountIn .unauditedBurn shown +
        amountIn .unauditedBurn (undated.filter fun r => r.tokenId = some policy.token) := by
    rw [hburns.amountIn_timeline, hrejected, hburns.amountIn_undated]
    exact awaitingUnwrap_eq policy cycle now raw
  refine ⟨hmint, hunwrap, fun hdated => ?_⟩
  have hnone : undated = [] := by
    refine List.filterMap_eq_nil_iff.mpr fun x hx => ?_
    rw [Rejection.record?]
    split
    next e he => exact absurd he (hdated x hx e)
    · rfl
  rw [hnone] at hmint hunwrap
  exact ⟨hmint, hunwrap⟩

/-- A deposit as it is served, with the value of its date field. -/
def servedDeposit (amount : Nat) (date : Json) : Json :=
  .object [("deposit", .object [("amount", .ofNat amount), ("eth_block_number", .ofNat 1),
    ("eth_tx_hash", .string ""), ("execution_date", date),
    ("expected_mint_nonce_hex", .string ""), ("safe_addr", .string ""),
    ("token_addr", .string "")])]

/-- Deposits and burns with and without a date, burns of two tokens, and a value without a shape. -/
def mixedRecords : Collections Json where
  unauditedBurns :=
    [servedBurn 1 10 (.string "2023-02-26"), servedBurn 2 1000 (.string "2023-02-26"),
      servedBurn 1 4 .null, servedBurn 2 500 .null]
  unauditedDeposits := [servedDeposit 7 (.string "2023-02-26"), .null, servedDeposit 3 .null]

/-- Of deposits 7 is shown and 3 is not; of burns 10 is shown and 4 is not. -/
theorem totals_of_mixedRecords :
    ServedOnlyIn .unauditedDeposits .unauditedDeposit mixedRecords ∧
      ServedOnlyIn .unauditedBurns .unauditedBurn mixedRecords ∧
      let made := reconcile {} 1 mixedRecords ⟨0, 0⟩
      let shown := made.view.timeline.map (·.record)
      let undated := made.rejected.filterMap Rejection.record?
      made.view.totals = ⟨10, 14⟩ ∧
        made.view.totals.awaitingMint =
          amountIn .unauditedDeposit shown + amountIn .unauditedDeposit undated ∧
        made.view.totals.awaitingUnwrap =
          amountIn .unauditedBurn shown +
            amountIn .unauditedBurn (undated.filter fun r => r.tokenId = some 1) := by
  have hdeposits : ServedOnlyIn .unauditedDeposits .unauditedDeposit mixedRecords := by
    intro c
    cases c <;> decide
  have hburns : ServedOnlyIn .unauditedBurns .unauditedBurn mixedRecords := by
    intro c
    cases c <;> decide
  have hagree := totals_agree {} 1 mixedRecords ⟨0, 0⟩ hdeposits hburns
  exact ⟨hdeposits, hburns, by decide, hagree.1, hagree.2.1⟩

end BridgeAudit
