import BridgeAudit.Proofs.Record.Parsing
import BridgeAudit.Proofs.Timeline.InFlight

/-!
Records with the linkage of an audited pair.

The linkage makes a record an audited one together with the ledger side that it links, and by itself
it does not.

* `Json.isLinked`, `Json.isPair`: a raw record with the linkage, and one with a ledger side as well.
* `classifyMembers_isAudited`, `classifyMembers_unauditedBurn`: the shapes of linked records.
* `sum_leaveOut`: raw records that count for nothing may be left out of a sum.
* `audited_iff_pair`: just the pairs are audited, and they are in no total; nothing linked is in the
  total of the burns.
* `linked_deposit_awaits_mint`: a linked deposit without its mint counts as one that waits.
-/

namespace BridgeAudit

/-! ### Linked records -/

/-- The value has a field of the name once its keys are in snake case. -/
def Json.hasKey (v : Json) (name : String) : Bool := Members.has v.snakeKeys.members name

/-- The value has the linkage of an audited pair. -/
def Json.isLinked (v : Json) : Bool := v.hasKey "audited"

/-- The value has the linkage of an audited pair and the ledger side of one. -/
def Json.isPair (v : Json) : Bool := v.isLinked && (v.hasKey "mint" || v.hasKey "burn")

variable {ms : List (String × Json)} {v : Json} {r : Record} {c : Category}

/-- A name of one word has one spelling. -/
lemma hasField_eq_has {name : String} (h : Key.camel name = name) :
    hasField ms name = Members.has ms name := by
  rw [hasField, h, Bool.or_self]

/-- The rules for the two audited shapes come first; each of them asks for the linkage and for one
ledger side. -/
lemma classifyMembers_isAudited (h : classifyMembers ms = some c) :
    c.isAudited = (hasField ms "audited" && (hasField ms "mint" || hasField ms "burn")) := by
  rw [classifyMembers] at h
  rw [Bool.and_or_distrib_left]
  split at h
  next hmint =>
    cases h
    rw [hmint, Bool.true_or]
    rfl
  next hmint =>
    split at h
    next hburn =>
      cases h
      rw [hburn, Bool.or_true]
      rfl
    next hburn =>
      -- no other rule makes a record an audited one
      rw [Bool.eq_false_iff.mpr hmint, Bool.eq_false_iff.mpr hburn, Bool.or_self]
      split_ifs at h <;> cases h <;> rfl

/-- A burn with the linkage is taken for an audited one before it is looked at as a burn alone. -/
lemma classifyMembers_unauditedBurn (h : classifyMembers ms = some .unauditedBurn) :
    hasField ms "audited" = false := by
  rw [classifyMembers] at h
  split at h
  · cases h
  · split at h
    · cases h
    next hpair =>
      split at h
      · cases h
      · split at h
        next hburn =>
          rw [hburn, Bool.and_true] at hpair
          exact Bool.eq_false_iff.mpr hpair
        · -- the rules behind the one for burns make up other shapes
          split_ifs at h <;> cases h

/-- A record is audited if and only if its raw record is a pair. -/
lemma isAudited_of_parse (h : Record.parse v = .ok r) : r.category.isAudited = v.isPair := by
  have hshape := classifyMembers_isAudited (Record.parse_eq_ok_iff.1 h).1
  rw [hasField_eq_has (by decide), hasField_eq_has (by decide +kernel),
    hasField_eq_has (by decide)] at hshape
  exact hshape

/-- A burn without a withdrawal is not linked. -/
lemma category_ne_of_isLinked (h : Record.parse v = .ok r) (hv : v.isLinked) :
    r.category ≠ .unauditedBurn := by
  intro hburn
  have hshape := (Record.parse_eq_ok_iff.1 h).1
  rw [hburn] at hshape
  have hnone := classifyMembers_unauditedBurn hshape
  rw [hasField_eq_has (by decide)] at hnone
  exact absurd hv (Bool.eq_false_iff.mp hnone)

/-- A pair has none of the other shapes. -/
lemma category_ne_of_isPair (h : Record.parse v = .ok r) (hv : v.isPair)
    (hc : c.isAudited = false) : r.category ≠ c := by
  rintro rfl
  rw [isAudited_of_parse h, hv] at hc
  cases hc

/-! ### The totals -/

/-- The raw records without those of some kind. -/
def Collections.leaveOut {α : Type} (p : α → Bool) (cs : Collections α) : Collections α :=
  cs.mapLists fun _ items => items.filter fun a => !p a

lemma Record.awaitedMint_of_ne (h : r.category ≠ .unauditedDeposit) : r.awaitedMint = 0 := by
  cases r <;> first | rfl | exact absurd rfl h

lemma Record.awaitedUnwrap_of_ne (h : r.category ≠ .unauditedBurn) (token : UInt64) :
    r.awaitedUnwrap token = 0 := by
  cases r <;> first | rfl | exact absurd rfl h

/-- Raw records that count for nothing may be left out of a sum. -/
lemma sum_leaveOut {p : Json → Bool} {f : Record → Nat}
    (h : ∀ v r, p v → Record.parse v = .ok r → f r = 0) (vs : List Json) :
    (((vs.filter fun v => !p v).filterMap fun v => (Record.parse v).toOption).map f).foldr
        (· + ·) 0 =
      ((vs.filterMap fun v => (Record.parse v).toOption).map f).foldr (· + ·) 0 := by
  induction vs with
  | nil => rfl
  | cons v vs ih =>
      cases hr : Record.parse v with
      | error e => cases hp : p v <;> simpa [hp, hr, Except.toOption] using ih
      | ok r =>
          cases hp : p v with
          | false => simpa [hp, hr, Except.toOption] using ih
          | true => simpa [hp, hr, Except.toOption, h v r hp hr] using ih

variable {p : Json → Bool} (policy : Policy) (cycle : Nat) (raw : Collections Json) (now : Instant)

/-- Raw records that are no deposits may be left out of what waits for a mint. -/
lemma awaitingMint_leaveOut (h : ∀ v r, p v → Record.parse v = .ok r → r.awaitedMint = 0) :
    (reconcile policy cycle (raw.leaveOut p) now).view.totals.awaitingMint =
      (reconcile policy cycle raw now).view.totals.awaitingMint := by
  have hsum : ∀ raw : Collections Json,
      (reconcile policy cycle raw now).view.totals.awaitingMint = Totals.mintSum
        ((raw.get .unauditedDeposits).filterMap fun v => (Record.parse v).toOption) := fun raw => by
    rw [← (takenIn_get raw .unauditedDeposits).records_eq]
    rfl
  rw [hsum, hsum, Collections.leaveOut, Collections.get_mapLists]
  exact sum_leaveOut h _

/-- Raw records that are no burns of the token may be left out of what waits for a withdrawal. -/
lemma awaitingUnwrap_leaveOut
    (h : ∀ v r, p v → Record.parse v = .ok r → r.awaitedUnwrap policy.token = 0) :
    (reconcile policy cycle (raw.leaveOut p) now).view.totals.awaitingUnwrap =
      (reconcile policy cycle raw now).view.totals.awaitingUnwrap := by
  have hsum : ∀ raw : Collections Json,
      (reconcile policy cycle raw now).view.totals.awaitingUnwrap = Totals.unwrapSum policy.token
        ((raw.get .unauditedBurns).filterMap fun v => (Record.parse v).toOption) := fun raw => by
    rw [← (takenIn_get raw .unauditedBurns).records_eq, ← unwrapSum_retainToken]
    rfl
  rw [hsum, hsum, Collections.leaveOut, Collections.get_mapLists]
  exact sum_leaveOut h _

/-- **Linked records.** A record that decodes has an audited shape if and only if its raw record has
the linkage and a mint or a burn with it, and a linked record never has the shape of a burn without
a withdrawal. So such a pair adds to neither total, and no linked record adds to what waits for a
withdrawal: the totals are the same without them. -/
theorem audited_iff_pair :
    (∀ v r, Record.parse v = .ok r →
        (r.category.isAudited ↔ v.isLinked ∧ (v.hasKey "mint" ∨ v.hasKey "burn")) ∧
          (v.isLinked → r.category ≠ .unauditedBurn)) ∧
      ∀ policy cycle raw now,
        (reconcile policy cycle (raw.leaveOut Json.isPair) now).view.totals =
            (reconcile policy cycle raw now).view.totals ∧
          (reconcile policy cycle (raw.leaveOut Json.isLinked) now).view.totals.awaitingUnwrap =
            (reconcile policy cycle raw now).view.totals.awaitingUnwrap := by
  refine ⟨fun v r h => ⟨?_, category_ne_of_isLinked h⟩, fun policy cycle raw now => ⟨?_, ?_⟩⟩
  · rw [isAudited_of_parse h, Json.isPair, Bool.and_eq_true, Bool.or_eq_true]
  · have hmint : (reconcile policy cycle (raw.leaveOut Json.isPair) now).view.totals.awaitingMint =
        (reconcile policy cycle raw now).view.totals.awaitingMint :=
      awaitingMint_leaveOut policy cycle raw now fun v r hv h =>
        Record.awaitedMint_of_ne (category_ne_of_isPair h hv rfl)
    have hunwrap :
        (reconcile policy cycle (raw.leaveOut Json.isPair) now).view.totals.awaitingUnwrap =
          (reconcile policy cycle raw now).view.totals.awaitingUnwrap :=
      awaitingUnwrap_leaveOut policy cycle raw now fun v r hv h =>
        Record.awaitedUnwrap_of_ne (category_ne_of_isPair h hv rfl) _
    exact congrArg₂ Totals.mk hmint hunwrap
  · exact awaitingUnwrap_leaveOut policy cycle raw now fun v r hv h =>
      Record.awaitedUnwrap_of_ne (category_ne_of_isLinked h hv) _

/-- A burn with the withdrawal that redeems it. -/
def pairedBurn : Record :=
  .auditedBurn ⟨⟨none, 1, 2⟩, ⟨none, 7, some "2023-02-26", 1, 250, "0a1b"⟩,
    ⟨none, "0xabc", 9, none, "0xsafe", "0xtoken", none, 250, "0a1b"⟩⟩

/-- A pair among the burns is an audited record, and only the burn beside it waits. -/
theorem pairedBurn_awaits_nothing :
    let raw : Collections Json :=
      { unauditedBurns := [pairedBurn.toJson, servedBurn 1 5 (.string "2023-02-26")] }
    Record.parse pairedBurn.toJson = .ok pairedBurn ∧ pairedBurn.toJson.isLinked ∧
      (pairedBurn.category.isAudited ↔ pairedBurn.toJson.isLinked ∧
        (pairedBurn.toJson.hasKey "mint" ∨ pairedBurn.toJson.hasKey "burn")) ∧
      pairedBurn.category ≠ .unauditedBurn ∧
      (reconcile {} 1 (raw.leaveOut Json.isPair) ⟨0, 0⟩).view.totals = ⟨0, 5⟩ ∧
      (reconcile {} 1 raw ⟨0, 0⟩).view.totals = ⟨0, 5⟩ := by
  intro raw
  have hparse : Record.parse pairedBurn.toJson = .ok pairedBurn := by rfl
  have hlinked : pairedBurn.toJson.isLinked := by decide
  have htotals : (reconcile {} 1 raw ⟨0, 0⟩).view.totals = ⟨0, 5⟩ := by decide
  obtain ⟨hrecord, hview⟩ := audited_iff_pair
  obtain ⟨hshape, hburn⟩ := hrecord _ _ hparse
  exact ⟨hparse, hlinked, hshape, hburn hlinked, (hview {} 1 raw ⟨0, 0⟩).1.trans htotals, htotals⟩

/-- A deposit with the linkage of an audited pair, and without the mint. -/
def linkedDeposit : Json :=
  .object (("audited", .object [("deposit_id", .ofNat 2), ("mint_tx_id", .ofNat 1)]) ::
    (servedDeposit 7 (.string "2023-02-26")).members)

/-- The linkage alone does not make a record an audited one: a linked deposit without its mint is a
deposit that waits for one. -/
theorem linked_deposit_awaits_mint :
    (¬∀ r, Record.parse linkedDeposit = .ok r →
        (r.category.isAudited ↔ linkedDeposit.isLinked)) ∧
      (reconcile {} 1 { unauditedDeposits := [linkedDeposit] } ⟨0, 0⟩).view.totals.awaitingMint =
        7 := by
  refine ⟨fun hall => ?_, by decide⟩
  have hparse : Record.parse linkedDeposit = .ok (.unauditedDeposit
      ⟨⟨none, "", 1, some "2023-02-26", "", "", none, 7, ""⟩⟩) := by rfl
  have hlinked : linkedDeposit.isLinked := by decide
  exact absurd ((hall _ hparse).mpr hlinked) (by decide)

end BridgeAudit
