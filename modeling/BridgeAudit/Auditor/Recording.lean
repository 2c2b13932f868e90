import BridgeAudit.Auditor.Exchange

/-!
An auditor that answers from a recording.

* `Recording.reply`: the reply that a recording has for a request.

A recording is an object. Under the first line of a request it has the reply: an object with the
status code under `status` and the value of the body under `body`. Without a code the reply stands
for success, without a body its body is no JSON, and without a reply there is none.
-/

namespace BridgeAudit

namespace Recording

/-- The code of a recorded reply. -/
def status (reply : List (String × Json)) : Status :=
  match Members.get? reply "status" with
  | some (.number (.integer code)) => code.toNat
  | _ => 200

/-- The reply that a recording has for a request. -/
def reply (recording : Option Json) (r : Request) : Reply :=
  match recording with
  | some (.object replies) =>
      match Members.get? replies r.line with
      | some (.object members) => .answered (status members) (Members.get? members "body")
      | _ => .closed
  | _ => .closed

end Recording

end BridgeAudit
