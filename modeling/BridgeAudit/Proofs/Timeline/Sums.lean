import BridgeAudit.Proofs.Record.Redating
import BridgeAudit.Proofs.Timeline.InFlight

/-!
What the totals depend on.

* `accumulate`, `accumulate_eq_some`: a running total of so many bits, which does not overflow if
  the sum fits.
* `amountsIn`, `sum_amountsIn_lt`: the amounts that are summed up, and a bound of their sum.
* `awaitedIn`: what a raw record adds to a total; `awaitedIn_redated`: another date changes nothing.
* `totals_ignore_dates`: the totals are exact, they fit in 128 bits, and neither dates nor burns of
  other tokens matter.
-/

namespace BridgeAudit

/-! ### Running totals -/

/-- A running total of so many bits, unless it overflows. -/
def accumulate (bits : Nat) (amounts : List Nat) : Option Nat :=
  amounts.foldlM
    (fun total amount => if total + amount < 2 ^ bits then some (total + amount) else none) 0

/-- No running total overflows if the sum fits. -/
lemma accumulate_eq_some {bits : Nat} {amounts : List Nat} (h : amounts.sum < 2 ^ bits) :
    accumulate bits amounts = some amounts.sum := by
  have hfrom : ∀ total, total + amounts.sum < 2 ^ bits → amounts.foldlM (fun total amount =>
      if total + amount < 2 ^ bits then some (total + amount) else none) total =
        some (total + amounts.sum) := by
    clear h
    induction amounts with
    | nil => exact fun _ _ => rfl
    | cons amount amounts ih =>
        intro total htotal
        rw [List.sum_cons, ← Nat.add_assoc] at *
        rw [List.foldlM_cons, if_pos (by omega)]
        exact ih _ htotal
  simpa [accumulate] using hfrom 0 (by simpa using h)

/-- The amounts of the records of a shape. -/
def amountsIn (shape : Category) (rs : List Record) : List Nat :=
  (rs.filter fun r => r.category = shape).map fun r => r.amount.toNat

/-- Fewer than `2 ^ 64` amounts of 64 bits have a sum of 128 bits. -/
lemma sum_amountsIn_lt {shape : Category} {rs : List Record} (h : rs.length < 2 ^ 64) :
    (amountsIn shape rs).sum < 2 ^ 128 := by
  have hamount : ∀ n ∈ amountsIn shape rs, n ≤ 2 ^ 64 := by
    intro n hn
    obtain ⟨r, -, rfl⟩ := List.mem_map.1 hn
    exact r.amount.toNat_lt.le
  have hlength : (amountsIn shape rs).length ≤ 2 ^ 64 - 1 := by
    rw [amountsIn, List.length_map]
    exact (List.length_filter_le _ _).trans (Nat.le_pred_of_lt h)
  calc (amountsIn shape rs).sum ≤ (amountsIn shape rs).length • 2 ^ 64 :=
        List.sum_le_card_nsmul _ _ hamount
    _ ≤ (2 ^ 64 - 1) * 2 ^ 64 := Nat.mul_le_mul_right _ hlength
    _ < 2 ^ 128 := by decide

/-! ### Raw records -/

/-- What a raw record adds to a sum over records. -/
def awaitedIn (awaited : Record → Nat) (v : Json) : Nat :=
  match Record.parse v with
  | .ok r => awaited r
  | .error _ => 0

section

variable {awaited : Record → Nat} {v w : Json}

lemma sum_awaitedIn (awaited : Record → Nat) (vs : List Json) :
    ((vs.filterMap fun v => (Record.parse v).toOption).map awaited).sum =
      (vs.map (awaitedIn awaited)).sum := by
  induction vs with
  | nil => rfl
  | cons v vs ih =>
      rw [List.map_cons, List.sum_cons, ← ih, awaitedIn]
      cases hparse : Record.parse v with
      | error e => simp only [List.filterMap_cons, toOption_of_error hparse, Nat.zero_add]
      | ok r => simp only [List.filterMap_cons, toOption_of_ok hparse, List.map_cons, List.sum_cons]

lemma awaitedIn_eq_zero (hzero : ∀ r, ¬r.IsAwaited → awaited r = 0)
    (h : ¬∃ r, Record.parse v = .ok r ∧ r.IsAwaited) : awaitedIn awaited v = 0 := by
  rw [awaitedIn]
  split
  next r hparse => exact hzero r fun hr => h ⟨r, hparse, hr⟩
  · rfl

/-- A raw record adds as much with another date. -/
lemma awaitedIn_redated (h : Redated v w)
    (hcounts : ∀ r r', Record.CountsAs r r' → awaited r' = awaited r)
    (hzero : ∀ r, ¬r.IsAwaited → awaited r = 0) : awaitedIn awaited w = awaitedIn awaited v := by
  by_cases hv : ∃ r, Record.parse v = .ok r ∧ r.IsAwaited
  · obtain ⟨r, hparse, hr⟩ := hv
    obtain ⟨r', hparse', hcountsAs⟩ := (Record.parse_of_redated h hr).1 hparse
    simp only [awaitedIn, hparse, hparse', hcounts r r' hcountsAs]
  · have hw : ¬∃ r, Record.parse w = .ok r ∧ r.IsAwaited := by
      rintro ⟨r, hparse, hr⟩
      obtain ⟨r', hparse', hcountsAs⟩ := (Record.parse_of_redated h hr).2 hparse
      refine hv ⟨r', hparse', ?_⟩
      rwa [Record.IsAwaited, hcountsAs.category]
    rw [awaitedIn_eq_zero hzero hv, awaitedIn_eq_zero hzero hw]

/-- So a list of raw records adds up to as much with other dates. -/
lemma sum_awaitedIn_redated (awaited : Record → Nat) {vs ws : List Json}
    (h : List.Forall₂ Redated vs ws)
    (hcounts : ∀ r r', Record.CountsAs r r' → awaited r' = awaited r)
    (hzero : ∀ r, ¬r.IsAwaited → awaited r = 0) :
    (ws.map (awaitedIn awaited)).sum = (vs.map (awaitedIn awaited)).sum := by
  induction h with
  | nil => rfl
  | cons hvw _ ih =>
      rw [List.map_cons, List.map_cons, List.sum_cons, List.sum_cons, ih,
        awaitedIn_redated hvw hcounts hzero]

end

namespace Record

lemma awaitedMint_eq (r : Record) :
    r.awaitedMint = if r.category = .unauditedDeposit then r.amount.toNat else 0 := by
  cases r <;> rfl

lemma awaitedUnwrap_eq (token : UInt64) (r : Record) : r.awaitedUnwrap token =
    if r.category = .unauditedBurn ∧ r.tokenId = some token then r.amount.toNat else 0 := by
  cases r <;> simp [awaitedUnwrap, category, tokenId, amount]

end Record

/-! ### The totals -/

variable (token : UInt64) {raw raw' : Collections Json}

/-- The totals by raw records. -/
lemma totals_eq (raw : Collections Json) : Totals.of token (ingest raw).records =
    ⟨(raw.unauditedDeposits.map (awaitedIn Record.awaitedMint)).sum,
      (raw.unauditedBurns.map (awaitedIn (Record.awaitedUnwrap token))).sum⟩ := by
  have hdeposits := (takenIn_get raw .unauditedDeposits).records_eq
  have hburns := (takenIn_get raw .unauditedBurns).records_eq
  simp only [Collections.get] at hdeposits hburns
  rw [Totals.of, hdeposits, hburns, ← sum_awaitedIn, ← sum_awaitedIn]
  rfl

/-- Other dates do not change the totals. -/
lemma totals_redated (hdeposits : List.Forall₂ Redated raw.unauditedDeposits raw'.unauditedDeposits)
    (hburns : List.Forall₂ Redated raw.unauditedBurns raw'.unauditedBurns) :
    Totals.of token (ingest raw').records = Totals.of token (ingest raw).records := by
  have hmint := sum_awaitedIn_redated Record.awaitedMint hdeposits
    (fun r r' h => by rw [r.awaitedMint_eq, r'.awaitedMint_eq, h.category, h.amount])
    (fun r hr => by rw [r.awaitedMint_eq, if_neg fun h => hr (.inl h)])
  have hunwrap := sum_awaitedIn_redated (Record.awaitedUnwrap token) hburns
    (fun r r' h => by
      rw [r.awaitedUnwrap_eq, r'.awaitedUnwrap_eq, h.category, h.amount, h.tokenId])
    (fun r hr => by rw [r.awaitedUnwrap_eq, if_neg fun h => hr (.inr h.1)])
  rw [totals_eq, totals_eq, hmint, hunwrap]

lemma length_get_le_size (raw : Collections Json) (c : Collection) :
    (raw.get c).length ≤ raw.size := by
  rw [Collections.size_eq_sum]
  exact List.single_le_sum (by simp) _ (List.mem_map_of_mem (Collection.mem_all c))

/-- **Dates, burns of other tokens and overflow do not matter to the totals.** They are the exact
sums of the amounts of the deposits without a mint, and of the burns of the token without a
withdrawal. Of fewer than `2 ^ 64` records no running total needs more than 128 bits. The totals
stay the same if deposits and burns are served with other dates or without any. The sum of the burns
stays the same if those of other tokens are dropped first. -/
theorem totals_ignore_dates (token : UInt64) (raw : Collections Json) :
    let totals := fun raw => Totals.of token (ingest raw).records
    let deposits := amountsIn .unauditedDeposit
      (raw.unauditedDeposits.filterMap fun v => (Record.parse v).toOption)
    let burns := amountsIn .unauditedBurn
      ((raw.unauditedBurns.filterMap fun v => (Record.parse v).toOption).filter fun r =>
        r.tokenId = some token)
    (totals raw).awaitingMint = deposits.sum ∧ (totals raw).awaitingUnwrap = burns.sum ∧
    (raw.size < 2 ^ 64 →
      (totals raw).awaitingMint < 2 ^ 128 ∧ (totals raw).awaitingUnwrap < 2 ^ 128 ∧
      accumulate 128 deposits = some (totals raw).awaitingMint ∧
      accumulate 128 burns = some (totals raw).awaitingUnwrap) ∧
    (∀ raw', List.Forall₂ Redated raw.unauditedDeposits raw'.unauditedDeposits →
      List.Forall₂ Redated raw.unauditedBurns raw'.unauditedBurns → totals raw' = totals raw) ∧
    let records := (ingest raw).records
    (Totals.of token { records with
      unauditedBurns := retainToken token records.unauditedBurns }).awaitingUnwrap =
        (totals raw).awaitingUnwrap := by
  intro totals deposits burns
  have hdeposits : (ingest raw).records.unauditedDeposits =
      raw.unauditedDeposits.filterMap fun v => (Record.parse v).toOption :=
    (takenIn_get raw .unauditedDeposits).records_eq
  have hburns : (ingest raw).records.unauditedBurns =
      raw.unauditedBurns.filterMap fun v => (Record.parse v).toOption :=
    (takenIn_get raw .unauditedBurns).records_eq
  have hmint : (totals raw).awaitingMint = deposits.sum := by
    simp only [deposits, ← hdeposits]
    exact mintSum_eq _
  have hunwrap : (totals raw).awaitingUnwrap = burns.sum := by
    simp only [burns, ← hburns]
    exact unwrapSum_eq token _
  refine ⟨hmint, hunwrap, fun hsize => ?_, fun raw' => totals_redated token,
    unwrapSum_retainToken token _⟩
  have hdepositsLt : deposits.sum < 2 ^ 128 :=
    sum_amountsIn_lt (((List.length_filterMap_le _ _).trans
      (length_get_le_size raw .unauditedDeposits)).trans_lt hsize)
  have hburnsLt : burns.sum < 2 ^ 128 :=
    sum_amountsIn_lt ((((List.length_filter_le _ _).trans (List.length_filterMap_le _ _)).trans
      (length_get_le_size raw .unauditedBurns)).trans_lt hsize)
  rw [hmint, hunwrap]
  exact ⟨hdepositsLt, hburnsLt, accumulate_eq_some hdepositsLt, accumulate_eq_some hburnsLt⟩

/-- A burn may be served with another date. -/
lemma redated_servedBurn (token amount : Nat) {date date' : Json} (hold : MaybeText (some date))
    (hnew : MaybeText (some date')) :
    Redated (servedBurn token amount date) (servedBurn token amount date') := by
  have hkeys : ["amount", "block_index", "block_timestamp", "public_key_hex", "token_id"].Pairwise
      (· < ·) := by
    simp only [String.lt_iff_toList_lt]
    decide
  have hcapitals : ∀ key ∈ ["burn", "amount", "block_index", "block_timestamp", "public_key_hex",
      "token_id"], Key.NoCapital key := by decide
  have hscalars : (∀ n, Json.Canonical (.ofNat n)) ∧ Json.Canonical (.string "") :=
    ⟨fun _ _ hms => (nomatch hms), fun _ hms => nomatch hms⟩
  have hcanonical : (servedBurn token amount date).Canonical := by
    refine Json.canonical_object (List.pairwise_singleton _ _) ?_ ?_
    · simpa using hcapitals "burn" (by simp)
    · refine List.forall_mem_singleton.2 (Json.canonical_object (List.pairwise_map.1 hkeys) ?_ ?_)
      · intro m hm
        exact hcapitals m.1 (List.mem_cons_of_mem _ (List.mem_map_of_mem hm))
      · simp [hscalars, hold.canonical]
  exact Redated.in_place [] [] [("amount", .ofNat amount), ("block_index", .ofNat 1)] _ (by decide)
    hcanonical hold hnew

/-- The burns of `mixedRecords` with other dates: the first one gets a text that is no date, the
second one loses its date, and the third one gets one. -/
def redatedRecords : Collections Json where
  unauditedBurns :=
    [servedBurn 1 10 (.string "yesterday"), servedBurn 2 1000 .null,
      servedBurn 1 4 (.string "2023-02-26"), servedBurn 2 500 .null]
  unauditedDeposits := mixedRecords.unauditedDeposits

/-- The burns of the token add up to 14, whatever their dates. -/
theorem totals_of_redatedRecords :
    List.Forall₂ Redated mixedRecords.unauditedDeposits redatedRecords.unauditedDeposits ∧
      List.Forall₂ Redated mixedRecords.unauditedBurns redatedRecords.unauditedBurns ∧
      mixedRecords.size < 2 ^ 64 ∧
      Totals.of 1 (ingest redatedRecords).records = Totals.of 1 (ingest mixedRecords).records ∧
      Totals.of 1 (ingest redatedRecords).records = ⟨10, 14⟩ := by
  have hdeposits :
      List.Forall₂ Redated mixedRecords.unauditedDeposits redatedRecords.unauditedDeposits :=
    List.forall₂_same.2 fun _ _ => .same
  have hburns : List.Forall₂ Redated mixedRecords.unauditedBurns redatedRecords.unauditedBurns :=
    .cons (redated_servedBurn 1 10 trivial trivial) <|
      .cons (redated_servedBurn 2 1000 trivial trivial) <|
        .cons (redated_servedBurn 1 4 trivial trivial) <|
          .cons (redated_servedBurn 2 500 trivial trivial) .nil
  obtain ⟨-, -, -, hredated, -⟩ := totals_ignore_dates 1 mixedRecords
  exact ⟨hdeposits, hburns, by decide, hredated _ hdeposits hburns, by decide⟩

end BridgeAudit
