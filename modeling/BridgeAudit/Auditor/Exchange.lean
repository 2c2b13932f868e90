import BridgeAudit.Cycle.Event
import BridgeAudit.Auditor.Error
import BridgeAudit.Json.Parser

/-!
An exchange with the auditor.

* `Request`, `Reply`: what is asked and what comes back.
* `Exchange`: a course of questions that ends with a result; every question goes on
  with each reply it may get.
* `Exchange.tell`: notes for the log in the course of an exchange.
* `Exchange.run`: the exchange with somebody who answers.

An exchange is data: it says what would be asked, and does nothing by itself.
-/

namespace BridgeAudit

/-- A question to the auditor: the address, the path behind it and the parameters. -/
structure Request where
  address : String
  path : String
  parameters : List (String × Nat)
  deriving DecidableEq, Repr

/-- What comes back. -/
inductive Reply
  /-- Nothing. -/
  | closed
  /-- A status code, and the value of the body if it is JSON. -/
  | answered (status : Status) (body : Option Json)
  deriving Repr

namespace Request

/-- The parameters as they are written behind the path. -/
def parameterText (r : Request) : String :=
  "&".intercalate (r.parameters.map fun p => p.1 ++ "=" ++ Digits.numeral p.2)

/-- The part of an address behind the host. -/
def behindHost (cs : List Char) : List Char :=
  let afterScheme := (cs.dropWhile (· ≠ ':')).drop 1
  (afterScheme.dropWhile (· = '/')).dropWhile fun c => c ≠ '/' && c ≠ '?' && c ≠ '#'

/-- The path that is asked for, host and parameters apart. -/
def targetPath (r : Request) : String :=
  match (behindHost (r.address ++ r.path).toList).takeWhile fun c => c ≠ '?' && c ≠ '#' with
  | [] => "/"
  | cs => String.ofList cs

/-- The parameters that the address itself brings along. -/
def ownParameters (r : Request) : String :=
  let cs := (behindHost (r.address ++ r.path).toList).takeWhile (· ≠ '#')
  String.ofList ((cs.dropWhile (· ≠ '?')).drop 1)

/-- The first line of the request. -/
def line (r : Request) : String :=
  let own := if r.ownParameters = "" then "" else r.ownParameters ++ "&"
  "GET " ++ r.targetPath ++ "?" ++ own ++ r.parameterText

end Request

/-- The reply with the given code and bytes. -/
def Reply.ofBytes (status : Status) (bytes : ByteArray) : Reply :=
  .answered status (Json.parseBytes bytes)

/-- A course of questions that ends with a result. -/
inductive Exchange (α : Type) : Type
  | done (a : α)
  | log (l : LogLine) (next : Exchange α)
  | ask (r : Request) (next : Reply → Exchange α)

namespace Exchange

variable {α β : Type}

/-- Goes on with the result of an exchange. -/
def andThen (x : Exchange α) (f : α → Exchange β) : Exchange β :=
  match x with
  | done a => f a
  | log l next => log l (next.andThen f)
  | ask r next => ask r fun reply => (next reply).andThen f

instance : Monad Exchange where
  pure := done
  bind := andThen

/-- Logs notes, one after another. -/
def tell : List Note → Exchange Unit
  | [] => done ()
  | n :: ns => log n.line (tell ns)

/-- The exchange with somebody who answers requests and takes log lines. -/
def run {m : Type → Type} [Monad m] (answer : Request → m Reply) (note : LogLine → m Unit) :
    Exchange α → m α
  | done a => pure a
  | log l next => do
      note l
      next.run answer note
  | ask r next => do
      let reply ← answer r
      (next reply).run answer note

end Exchange

end BridgeAudit
