import TestDelegation.Decimal.Digits
import TestDelegation.Text.Strip

/-!
Answers of the remote service: what counts as success, and the message of what does not.
-/

namespace TestDelegation

structure Response where
  status : Nat
  body : String
  deriving DecidableEq

/-- Why no body came back. A failed exchange carries the texts of the errors below it. -/
inductive TransportError where
  | status (url : String) (status : Nat) (message : String)
  | request (url : String) (sources : List String)
  | body (url : String) (sources : List String)
  deriving DecidableEq

namespace TransportError

def message : TransportError → String
  | .status url code detail =>
    "could not find resource for test [" ++ url ++ "]; status: " ++ Decimal.natText code ++
      " - " ++ detail
  | .request url _ => "request to [" ++ url ++ "] failed"
  | .body url _ => "failed to read response body from [" ++ url ++ "]"

def sources : TransportError → List String
  | .status _ _ _ => []
  | .request _ texts => texts
  | .body _ texts => texts

end TransportError

def canonicalReasons : List (Nat × String) :=
  [(100, "Continue"), (101, "Switching Protocols"), (102, "Processing"), (103, "Early Hints"),
    (200, "OK"), (201, "Created"), (202, "Accepted"), (203, "Non Authoritative Information"),
    (204, "No Content"), (205, "Reset Content"), (206, "Partial Content"),
    (207, "Multi-Status"), (208, "Already Reported"), (226, "IM Used"),
    (300, "Multiple Choices"), (301, "Moved Permanently"), (302, "Found"), (303, "See Other"),
    (304, "Not Modified"), (305, "Use Proxy"), (307, "Temporary Redirect"),
    (308, "Permanent Redirect"), (400, "Bad Request"), (401, "Unauthorized"),
    (402, "Payment Required"), (403, "Forbidden"), (404, "Not Found"),
    (405, "Method Not Allowed"), (406, "Not Acceptable"),
    (407, "Proxy Authentication Required"), (408, "Request Timeout"), (409, "Conflict"),
    (410, "Gone"), (411, "Length Required"), (412, "Precondition Failed"),
    (413, "Payload Too Large"), (414, "URI Too Long"), (415, "Unsupported Media Type"),
    (416, "Range Not Satisfiable"), (417, "Expectation Failed"), (418, "I'm a teapot"),
    (421, "Misdirected Request"), (422, "Unprocessable Entity"), (423, "Locked"),
    (424, "Failed Dependency"), (425, "Too Early"), (426, "Upgrade Required"),
    (428, "Precondition Required"), (429, "Too Many Requests"),
    (431, "Request Header Fields Too Large"), (451, "Unavailable For Legal Reasons"),
    (500, "Internal Server Error"), (501, "Not Implemented"), (502, "Bad Gateway"),
    (503, "Service Unavailable"), (504, "Gateway Timeout"), (505, "HTTP Version Not Supported"),
    (506, "Variant Also Negotiates"), (507, "Insufficient Storage"), (508, "Loop Detected"),
    (510, "Not Extended"), (511, "Network Authentication Required")]

def canonicalReason? (status : Nat) : Option String := canonicalReasons.lookup status

def messageLimit : Nat := 1024

def truncateMessage (text : String) : String :=
  let chars := text.toList
  if chars.length ≤ messageLimit then text
  else String.ofList (chars.take messageLimit ++ ['…'])

namespace Response

def statusMessage (response : Response) : String :=
  let body := Text.trim response.body
  if body.isEmpty then (canonicalReason? response.status).getD "unknown status"
  else truncateMessage body

def intoBody (response : Response) (url : String) : Except TransportError String :=
  if response.status < 300 then .ok response.body
  else .error (.status url response.status response.statusMessage)

end Response

end TestDelegation
