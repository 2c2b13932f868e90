/-!
The six collections that records are served in.

* `Collection`: which one; `Collection.all` lists them in the order in which they are put
  together.
* `Collections`: a list for each of them, read with `Collections.get` and made with
  `Collections.ofFn`.
* `Collections.flatten`: all lists in that order.
-/

namespace BridgeAudit

/-- One of the six collections of the auditor. -/
inductive Collection
  | auditedMints
  | auditedBurns
  | unauditedMints
  | unauditedBurns
  | unauditedDeposits
  | unauditedWithdrawals
  deriving DecidableEq, Repr, Inhabited

namespace Collection

/-- All collections in their order. -/
def all : List Collection :=
  [auditedMints, auditedBurns, unauditedMints, unauditedBurns, unauditedDeposits,
    unauditedWithdrawals]

/-- The key of a collection. -/
def key : Collection → String
  | auditedMints => "audited_mints"
  | auditedBurns => "audited_burns"
  | unauditedMints => "unaudited_mints"
  | unauditedBurns => "unaudited_burns"
  | unauditedDeposits => "unaudited_deposits"
  | unauditedWithdrawals => "unaudited_withdrawals"

/-- The name of a collection in a message. -/
def name : Collection → String
  | auditedMints => "audited mints"
  | auditedBurns => "audited burns"
  | unauditedMints => "unaudited mints"
  | unauditedBurns => "unaudited burns"
  | unauditedDeposits => "unaudited deposits"
  | unauditedWithdrawals => "unaudited withdrawals"

/-- Every collection is listed. -/
theorem mem_all (c : Collection) : c ∈ all := by cases c <;> decide

end Collection

/-- A list for each of the six collections. -/
structure Collections (α : Type) where
  auditedMints : List α := []
  auditedBurns : List α := []
  unauditedMints : List α := []
  unauditedBurns : List α := []
  unauditedDeposits : List α := []
  unauditedWithdrawals : List α := []
  deriving DecidableEq, Repr, Inhabited

namespace Collections

variable {α β : Type}

/-- The list of a collection. -/
def get (cs : Collections α) : Collection → List α
  | .auditedMints => cs.auditedMints
  | .auditedBurns => cs.auditedBurns
  | .unauditedMints => cs.unauditedMints
  | .unauditedBurns => cs.unauditedBurns
  | .unauditedDeposits => cs.unauditedDeposits
  | .unauditedWithdrawals => cs.unauditedWithdrawals

/-- The lists given by a function. -/
def ofFn (f : Collection → List α) : Collections α :=
  ⟨f .auditedMints, f .auditedBurns, f .unauditedMints, f .unauditedBurns, f .unauditedDeposits,
    f .unauditedWithdrawals⟩

@[simp] theorem get_ofFn (f : Collection → List α) (c : Collection) : (ofFn f).get c = f c := by
  cases c <;> rfl

@[simp] theorem ofFn_get (cs : Collections α) : ofFn cs.get = cs := rfl

/-- Two families of lists are equal if each of their lists is. -/
theorem ext {cs ds : Collections α} (h : ∀ c, cs.get c = ds.get c) : cs = ds := by
  rw [← ofFn_get cs, ← ofFn_get ds]
  exact congrArg ofFn (funext h)

/-- The lists with one of them replaced. -/
def set (cs : Collections α) (c : Collection) (items : List α) : Collections α :=
  ofFn fun d => if d = c then items else cs.get d

@[simp] theorem get_empty (c : Collection) : ({} : Collections α).get c = [] := by cases c <;> rfl

@[simp] theorem get_set (cs : Collections α) (c d : Collection) (items : List α) :
    (cs.set c items).get d = if d = c then items else cs.get d := by
  simp [set]

/-- Each list changed in a way that may depend on its collection. -/
def mapLists (f : Collection → List α → List β) (cs : Collections α) : Collections β :=
  ofFn fun c => f c (cs.get c)

@[simp] theorem get_mapLists (f : Collection → List α → List β) (cs : Collections α)
    (c : Collection) : (cs.mapLists f).get c = f c (cs.get c) := by
  simp [mapLists]

/-- All lists behind one another. -/
def flatten (cs : Collections α) : List α := Collection.all.flatMap cs.get

/-- A list that is the only one is all there is. -/
theorem flatten_set_empty (c : Collection) (items : List α) :
    (({} : Collections α).set c items).flatten = items := by
  cases c <;> simp [flatten, Collection.all]

/-- The number of items in all lists together. -/
def size (cs : Collections α) : Nat := cs.flatten.length

end Collections

end BridgeAudit
