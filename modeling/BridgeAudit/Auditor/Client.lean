import BridgeAudit.Auditor.Balance
import BridgeAudit.Auditor.Exchange
import BridgeAudit.Cycle.View

/-!
Asking the auditor.

* `Client.connect`: a client for a connection that can be used.
* `Client.page`, `Client.collection`: one page of a list, and all of them up to the first short
  one or the largest number of pages.
* `Client.balance`: the ledger balance of a token.
* `Client.load`: the view of everything the auditor serves.
-/

namespace BridgeAudit

/-- Where each collection is served. -/
def Collection.path : Collection → String
  | auditedMints => "/audited_mints"
  | auditedBurns => "/audited_burns"
  | unauditedMints => "/unaudited_mint_txs"
  | unauditedBurns => "/unaudited_burn_tx_outs"
  | unauditedDeposits => "/unaudited_gnosis_deposits"
  | unauditedWithdrawals => "/unaudited_gnosis_withdrawals"

/-- A client of the auditor. -/
structure Client where
  /-- The address, without a slash at its end. -/
  address : String
  pageSize : Nat
  maxPages : Nat
  deriving DecidableEq, Repr

/-- What kind of value a body holds. -/
def Json.kindName : Json → String
  | .null => "null"
  | .boolean _ => "a boolean"
  | .number _ => "a number"
  | .string _ => "a string"
  | .array _ => "an array"
  | .object _ => "an object"

namespace Client

/-- A client for a connection, if it can be used. -/
def connect (c : Connection) : Except AuditorError Client :=
  match c.check with
  | .error e => .error (.unusable e.message)
  | .ok () => .ok ⟨Connection.trimSlashes c.address, c.pageSize, c.maxPages⟩

/-- What a reply comes to: the value of its body, or what is wrong. -/
def bodyOf (path : String) : Reply → Except AuditorError Json
  | .closed => .error .transport
  | .answered status body =>
      if status.isSuccess then
        match body with
        | some v => .ok v
        | none => .error .transport
      else .error (.status path status)

/-- The log line for a reply whose code does not stand for success. -/
def failureLine (path : String) (status : Status) : LogLine :=
  ⟨.error, "api failure: GET to " ++ path ++ " responded with " ++ status.text⟩

/-- Asks for a value. -/
def get (c : Client) (path : String) (parameters : List (String × Nat)) :
    Exchange (Except AuditorError Json) :=
  .ask ⟨c.address, path, parameters⟩ fun reply =>
    let result : Exchange (Except AuditorError Json) := .done (bodyOf path reply)
    match reply with
    | .answered status _ =>
        if status.isSuccess then result else .log (failureLine path status) result
    | .closed => result

/-- The records of a page, which has to be an array. -/
def recordsOf (path : String) : Json → Except AuditorError (List Json)
  | .array records => .ok records
  | v => .error (.unexpectedShape path ("expected a JSON array, got " ++ v.kindName))

/-- The number of records in front of a page, in 64 bits. -/
def offset (c : Client) (page : Nat) : Nat := page * c.pageSize % Bits.bound 64

/-- One page of a list. -/
def page (c : Client) (path : String) (page : Nat) :
    Exchange (Except AuditorError (List Json)) := do
  let body ← c.get path [("offset", c.offset page), ("limit", c.pageSize)]
  pure (body.bind (recordsOf path))

/-- The log line for a list that may go on behind the last page asked for. -/
def stoppedLine (c : Client) (path : String) (count : Nat) : LogLine :=
  ⟨.info, "Stopped paging " ++ path ++ " after " ++ Digits.numeral c.maxPages ++ " pages (" ++
    Digits.numeral count ++ " records)"⟩

/-- The log line for a list that has been fetched. -/
def fetchedLine (path : String) (count : Nat) : LogLine :=
  ⟨.debug, "Fetched " ++ Digits.numeral count ++ " records from " ++ path⟩

/-- The end of a list. -/
def finish (path : String) (records : List Json) : Exchange (Except AuditorError (List Json)) :=
  .log (fetchedLine path records.length) (.done (.ok records))

/-- The pages of a list from the given one on, at most `left` of them, behind the records that
are already there. -/
def pages (c : Client) (path : String) :
    (left page : Nat) → List Json → Exchange (Except AuditorError (List Json))
  | 0, _, got => finish path got
  | left + 1, page, got => do
      match ← c.page path page with
      | .error e => pure (.error e)
      | .ok batch =>
          let got := got ++ batch
          if batch.length < c.pageSize then finish path got
          else if left = 0 then .log (c.stoppedLine path got.length) (finish path got)
          else c.pages path left (page + 1) got

/-- A whole list, page after page. -/
def collection (c : Client) (path : String) : Exchange (Except AuditorError (List Json)) :=
  c.pages path c.maxPages 0 []

/-- The ledger balance of a token. -/
def balance (c : Client) (token : UInt64) : Exchange (Except AuditorError Balance) := do
  let body ← c.get Balance.path [("token_id", token.toNat)]
  pure (body.bind (Balance.decode token))

/-- The given collections, one after the other, put where they belong. The first that cannot be
fetched ends the exchange. A session asks all collections at once instead; what that comes to is
the same, but the order of the requests of different collections is not. -/
def fetchAll (c : Client) :
    List Collection → Collections Json → Exchange (Except CycleError (Collections Json))
  | [], got => pure (.ok got)
  | k :: ks, got => do
      match ← c.collection k.path with
      | .error e => pure (.error (.fetch k e))
      | .ok records => c.fetchAll ks (got.set k records)

/-- The name of a client in the log. -/
def name : String := "AuditorClient"

/-- The view of everything the auditor serves, as the given cycle. -/
def load (c : Client) (policy : Policy) (cycle : Nat) (now : Instant) :
    Exchange (Except CycleError View) := do
  Exchange.tell [.event (.started cycle), .log (fetchingLine name)]
  match ← c.fetchAll Collection.all {} with
  | .error e =>
      Exchange.tell [.event (.failed cycle e.message)]
      pure (.error e)
  | .ok raw =>
      let made := reconcile policy cycle raw now
      Exchange.tell (made.notes policy)
      pure (.ok made.view)

end Client

end BridgeAudit
