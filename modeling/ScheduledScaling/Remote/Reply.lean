import ScheduledScaling.Store.Failure
/-!
Replies of the cluster's interface. A refusal explains itself in its text; if the text is
something else, the explanation is made up from the status.
-/
namespace ScheduledScaling

structure Reply where
  status : Nat
  text : String
  deriving DecidableEq, Repr

namespace Reply

/-- The phrases of the statuses that refuse. -/
def phrases : List (Nat × String) :=
  [(400, "Bad Request"), (401, "Unauthorized"), (402, "Payment Required"), (403, "Forbidden"),
    (404, "Not Found"), (405, "Method Not Allowed"), (406, "Not Acceptable"),
    (407, "Proxy Authentication Required"), (408, "Request Timeout"), (409, "Conflict"),
    (410, "Gone"), (411, "Length Required"), (412, "Precondition Failed"),
    (413, "Payload Too Large"), (414, "URI Too Long"), (415, "Unsupported Media Type"),
    (416, "Range Not Satisfiable"), (417, "Expectation Failed"), (418, "I'm a teapot"),
    (421, "Misdirected Request"), (422, "Unprocessable Entity"), (423, "Locked"),
    (424, "Failed Dependency"), (425, "Too Early"), (426, "Upgrade Required"),
    (428, "Precondition Required"), (429, "Too Many Requests"),
    (431, "Request Header Fields Too Large"), (451, "Unavailable For Legal Reasons"),
    (500, "Internal Server Error"), (501, "Not Implemented"), (502, "Bad Gateway"),
    (503, "Service Unavailable"), (504, "Gateway Timeout"), (505, "HTTP Version Not Supported"),
    (506, "Variant Also Negotiates"), (507, "Insufficient Storage"), (508, "Loop Detected"),
    (510, "Not Extended"), (511, "Network Authentication Required")]

/-- A status with its phrase. -/
def statusText (status : Nat) : String :=
  toString status ++ " " ++ (phrases.lookup status).getD "<unknown status code>"

def isRefusal (r : Reply) : Bool := 400 ≤ r.status && r.status < 600

/-- Why the cluster refused. -/
def refusal (r : Reply) : ErrorResponse :=
  match Codec.ofText r.text with
  | .ok explained => explained
  | .error _ =>
    { status := statusText r.status
      message := Text.quoted r.text
      reason := "Failed to parse error data"
      code := r.status }

/-- The value that a reply holds. -/
def read {α : Type} (reader : String → Except DecodeError α) (r : Reply) :
    Except RemoteFailure α :=
  if r.isRefusal then .error (.refused r.refusal)
  else
    match reader r.text with
    | .ok a => .ok a
    | .error e => .error (.unreadable (e.messageIn r.text))

end Reply

end ScheduledScaling
