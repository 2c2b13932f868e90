import Mathlib.Tactic
import BridgeAudit.Auditor.Client

/-!
Exchanges with somebody who answers.

* `Server`: somebody who answers every request, and may have all earlier ones in mind.
* `Exchange.interview`: what an exchange with a server comes to, and which requests are asked.
* `interview_bind`: one exchange after another.
* `Client.interview_get`, `Client.interview_page`: what one request comes to.
-/

namespace BridgeAudit

/-- Somebody who answers requests, with all that have been asked before in mind. -/
abbrev Server := List Request → Request → Reply

/-- The reply to a request; the request is noted down behind those that have been asked before. -/
def Server.consult (server : Server) (r : Request) : StateM (List Request) Reply :=
  fun asked => (server asked r, asked ++ [r])

variable {α β : Type} (server : Server) (asked : List Request)

/-! ### Any exchange -/

namespace Exchange

/-- What an exchange with a server comes to, and all requests that have been asked at its end,
behind those that had been asked before. -/
def interview (x : Exchange α) : α × List Request :=
  (x.run server.consult fun _ => pure ()).run asked

@[simp] lemma interview_done (a : α) : (done a).interview server asked = (a, asked) := rfl

@[simp] lemma interview_pure (a : α) :
    (pure a : Exchange α).interview server asked = (a, asked) := rfl

@[simp] lemma interview_log (l : LogLine) (next : Exchange α) :
    (log l next).interview server asked = next.interview server asked := rfl

@[simp] lemma interview_ask (r : Request) (next : Reply → Exchange α) :
    (ask r next).interview server asked =
      (next (server asked r)).interview server (asked ++ [r]) := rfl

/-- The second of two exchanges goes on with the result of the first one and with what has been
asked in it. -/
lemma interview_bind (x : Exchange α) (f : α → Exchange β) :
    (x >>= f).interview server asked =
      (f (x.interview server asked).1).interview server (x.interview server asked).2 := by
  induction x generalizing asked with
  | done a => rfl
  | log l next ih => exact ih asked
  | ask r next ih => exact ih (server asked r) (asked ++ [r])

end Exchange

/-! ### One request -/

namespace Client

variable (c : Client) (path : String)

/-- What a reply comes to as a page: its records, or what is wrong. -/
def pageOf (reply : Reply) : Except AuditorError (List Json) :=
  (bodyOf path reply).bind (recordsOf path)

/-- The request for a page. -/
def pageRequest (page : Nat) : Request :=
  ⟨c.address, path, [("offset", c.offset page), ("limit", c.pageSize)]⟩

/-- A value is asked for once, whatever comes back. -/
lemma interview_get (parameters : List (String × Nat)) :
    (c.get path parameters).interview server asked =
      (bodyOf path (server asked ⟨c.address, path, parameters⟩),
        asked ++ [⟨c.address, path, parameters⟩]) := by
  rw [get, Exchange.interview_ask]
  cases server asked ⟨c.address, path, parameters⟩ with
  | closed => rfl
  | answered status body =>
      dsimp only
      split <;> rfl

/-- A page is asked for once, whatever comes back. -/
lemma interview_page (page : Nat) :
    (c.page path page).interview server asked =
      (pageOf path (server asked (c.pageRequest path page)),
        asked ++ [c.pageRequest path page]) := by
  rw [Client.page, Exchange.interview_bind, interview_get]
  rfl

end Client

end BridgeAudit
