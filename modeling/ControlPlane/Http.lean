import ControlPlane.Json.Form
import ControlPlane.Number.Decimal

/-!
# ControlPlane.Http

Requests and responses of HTTP, as far as nodes and their clients look at them.
-/

namespace ControlPlane.Http

/-- A status of a response. -/
structure Status where
  code : Nat
  deriving DecidableEq, Repr

namespace Status

/-- Done. -/
def ok : Status := ⟨200⟩

/-- Done, and something new is there. -/
def created : Status := ⟨201⟩

/-- The request is damaged. -/
def badRequest : Status := ⟨400⟩

/-- There is nothing at the path. -/
def notFound : Status := ⟨404⟩

/-- What is at the path does not know the method. -/
def methodNotAllowed : Status := ⟨405⟩

/-- What was asked for contradicts what is there. -/
def conflict : Status := ⟨409⟩

/-- The body is too long. -/
def payloadTooLarge : Status := ⟨413⟩

/-- The body is of a type that is not read. -/
def unsupportedMediaType : Status := ⟨415⟩

/-- The body is well formed but not what is asked for. -/
def unprocessable : Status := ⟨422⟩

/-- The node could not do it. -/
def serverError : Status := ⟨500⟩

/-- Whether a status says that the request succeeded. -/
def isSuccess (s : Status) : Bool := 200 ≤ s.code && s.code < 300

/-- The phrases that the standard gives with status codes. -/
def phrases : List (Nat × String) :=
  [(100, "Continue"), (101, "Switching Protocols"), (102, "Processing"), (200, "OK"),
    (201, "Created"), (202, "Accepted"), (203, "Non Authoritative Information"),
    (204, "No Content"), (205, "Reset Content"), (206, "Partial Content"), (207, "Multi-Status"),
    (208, "Already Reported"), (226, "IM Used"), (300, "Multiple Choices"),
    (301, "Moved Permanently"), (302, "Found"), (303, "See Other"), (304, "Not Modified"),
    (305, "Use Proxy"), (307, "Temporary Redirect"), (308, "Permanent Redirect"),
    (400, "Bad Request"), (401, "Unauthorized"), (402, "Payment Required"), (403, "Forbidden"),
    (404, "Not Found"), (405, "Method Not Allowed"), (406, "Not Acceptable"),
    (407, "Proxy Authentication Required"), (408, "Request Timeout"), (409, "Conflict"),
    (410, "Gone"), (411, "Length Required"), (412, "Precondition Failed"),
    (413, "Payload Too Large"), (414, "URI Too Long"), (415, "Unsupported Media Type"),
    (416, "Range Not Satisfiable"), (417, "Expectation Failed"), (418, "I'm a teapot"),
    (421, "Misdirected Request"), (422, "Unprocessable Entity"), (423, "Locked"),
    (424, "Failed Dependency"), (425, "Too Early"), (426, "Upgrade Required"),
    (428, "Precondition Required"), (429, "Too Many Requests"),
    (431, "Request Header Fields Too Large"), (451, "Unavailable For Legal Reasons"),
    (500, "Internal Server Error"), (501, "Not Implemented"), (502, "Bad Gateway"),
    (503, "Service Unavailable"), (504, "Gateway Timeout"), (505, "HTTP Version Not Supported"),
    (506, "Variant Also Negotiates"), (507, "Insufficient Storage"), (508, "Loop Detected"),
    (510, "Not Extended"), (511, "Network Authentication Required")]

/-- A status is shown as its code and phrase. -/
def label (s : Status) : String :=
  Decimal.natural s.code ++ " " ++ (phrases.lookup s.code).getD "<unknown status code>"

end Status

/-- A request.  The target is the path with what may follow it. -/
structure Request where
  method : String
  target : String
  contentType : Option String
  body : Bytes
  deriving DecidableEq, Repr

/-- The response of a node: a status, and JSON if there is a body. -/
structure Response where
  status : Status
  body : Option Json

/-- The bytes of a body. -/
def bodyBytes (body : Option Json) : Bytes := body.elim [] fun j => Utf8.encode j.render

/-- What a client gets back: a status, and the bytes of the body. -/
structure Received where
  status : Status
  body : Bytes
  deriving DecidableEq, Repr

/-- The path of a target: what is in front of a query or a fragment. -/
def pathOf (target : String) : List Char := target.toList.takeWhile fun c => c ≠ '?' ∧ c ≠ '#'

end ControlPlane.Http
