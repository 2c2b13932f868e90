import BridgeAudit.Record.Fault

/-!
What can go wrong with a request to the auditor.

* `Status`: the code of a reply, `Status.isSuccess` and the usual phrase for it.
* `AuditorError`: the causes of a failed request.
-/

namespace BridgeAudit

/-! ### Status codes -/

/-- The code of a reply. -/
abbrev Status := Nat

namespace Status

/-- The codes from 200 to 299 stand for success. -/
def isSuccess (code : Status) : Bool := 200 ≤ code && code < 300

/-- The registered phrases of the codes that have one. -/
def phrases : List (Status × String) := [
  (100, "Continue"), (101, "Switching Protocols"), (102, "Processing"), (103, "Early Hints"),
  (200, "OK"), (201, "Created"), (202, "Accepted"), (203, "Non Authoritative Information"),
  (204, "No Content"), (205, "Reset Content"), (206, "Partial Content"), (207, "Multi-Status"),
  (208, "Already Reported"), (226, "IM Used"),
  (300, "Multiple Choices"), (301, "Moved Permanently"), (302, "Found"), (303, "See Other"),
  (304, "Not Modified"), (305, "Use Proxy"), (307, "Temporary Redirect"),
  (308, "Permanent Redirect"),
  (400, "Bad Request"), (401, "Unauthorized"), (402, "Payment Required"), (403, "Forbidden"),
  (404, "Not Found"), (405, "Method Not Allowed"), (406, "Not Acceptable"),
  (407, "Proxy Authentication Required"), (408, "Request Timeout"), (409, "Conflict"),
  (410, "Gone"), (411, "Length Required"), (412, "Precondition Failed"),
  (413, "Payload Too Large"), (414, "URI Too Long"), (415, "Unsupported Media Type"),
  (416, "Range Not Satisfiable"), (417, "Expectation Failed"), (418, "I'm a teapot"),
  (421, "Misdirected Request"), (422, "Unprocessable Entity"), (423, "Locked"),
  (424, "Failed Dependency"), (425, "Too Early"), (426, "Upgrade Required"),
  (428, "Precondition Required"), (429, "Too Many Requests"),
  (431, "Request Header Fields Too Large"), (451, "Unavailable For Legal Reasons"),
  (500, "Internal Server Error"), (501, "Not Implemented"), (502, "Bad Gateway"),
  (503, "Service Unavailable"), (504, "Gateway Timeout"), (505, "HTTP Version Not Supported"),
  (506, "Variant Also Negotiates"), (507, "Insufficient Storage"), (508, "Loop Detected"),
  (510, "Not Extended"), (511, "Network Authentication Required")]

/-- A code with its phrase. -/
def text (code : Status) : String :=
  Digits.numeral code ++ " " ++ (phrases.lookup code).getD "<unknown status code>"

end Status

/-! ### Errors -/

/-- Why a request to the auditor failed. -/
inductive AuditorError
  /-- There was no reply, or its body is not JSON. -/
  | transport
  /-- The reply has a code that does not stand for success. -/
  | status (path : String) (code : Status)
  /-- The body does not decode. -/
  | undecodable (fault : Fault)
  /-- The body is of another shape than the wanted one. -/
  | unexpectedShape (path detail : String)
  /-- The connection cannot be used. -/
  | unusable (detail : String)
  deriving Repr

/-- What is said of a failed request. -/
def AuditorError.message : AuditorError → String
  | transport => "HTTP error"
  | status path code => "GET " ++ path ++ " responded with " ++ code.text
  | undecodable fault => "JSON parse error: " ++ fault.message
  | unexpectedShape path detail => "Unexpected response shape from " ++ path ++ ": " ++ detail
  | unusable detail => "Invalid auditor URL: " ++ detail

end BridgeAudit
