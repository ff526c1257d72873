import NScale.Service
import NScale.Text

/-!
# HTTP requests

The head of a request as `axum::http` has it: its method, its URI and its header list. Bodies
are left out; a request without headers is what `Request::builder` starts from.
-/
namespace NScale.Http
open Service (Method)

/-- A header name, which is kept in lower case. -/
structure HeaderName where
  text : String
  lower : text.toList.all (fun c => !c.isUpper) = true
  deriving DecidableEq

namespace HeaderName

def host : HeaderName := ⟨"host", by decide⟩

def connection : HeaderName := ⟨"connection", by decide⟩

def upgrade : HeaderName := ⟨"upgrade", by decide⟩

end HeaderName

/-- The value of a header, which may be any bytes. -/
abbrev HeaderValue := List UInt8

/-- `HeaderValue::to_str`, for visible ASCII. -/
def HeaderValue.toStr (value : HeaderValue) : Option (List Char) :=
  if value.all fun b => (32 ≤ b && b < 127) || b = 9 then
    some (value.map fun b => Char.ofNat b.toNat)
  else none

def asciiValue (text : String) : HeaderValue := text.toList.map fun c => c.toNat.toUInt8

/-- The headers in their order, a repeated name once for each value. -/
abbrev HeaderMap := List (HeaderName × HeaderValue)

namespace HeaderMap

def get (headers : HeaderMap) (name : HeaderName) : Option HeaderValue := headers.lookup name

def getAll (headers : HeaderMap) (name : HeaderName) : List HeaderValue :=
  (headers.filter (·.1 = name)).map (·.2)

/-- One value in the place of those that the name has had. -/
def insert (name : HeaderName) (value : HeaderValue) : HeaderMap → HeaderMap
  | [] => [(name, value)]
  | header :: headers =>
    if header.1 = name then (name, value) :: headers.filter (·.1 ≠ name)
    else header :: insert name value headers

end HeaderMap

/-- `eq_ignore_ascii_case`. -/
def eqIgnoreAsciiCase (a b : List Char) : Bool := a.map Char.toLower = b.map Char.toLower

def headerContainsToken (headers : HeaderMap) (name : HeaderName) (token : String) : Bool :=
  (headers.getAll name).any fun value => value.toStr.any fun text =>
    (text.splitOn ',').any fun part => eqIgnoreAsciiCase (Text.trim part) token.toList

/-- The headers that `forward_request` skips. -/
def skipped : List String :=
  ["host", "connection", "keep-alive", "transfer-encoding", "te", "trailer", "upgrade",
    "proxy-authorization", "proxy-connection"]

/-- The headers that concern more than the connection they came in on: neither skipped nor
nominated by a token of a `Connection` header. -/
def endToEnd (headers : HeaderMap) : HeaderMap :=
  headers.filter fun header =>
    header.1.text ∉ skipped && !headerContainsToken headers .connection header.1.text

/-- The text is that of a URI of its own: an asterisk, or a path that is not empty. -/
def Relative (text : String) : Prop := text = "*" ∨ text.toList.head? = some '/'

instance : DecidablePred Relative := fun text =>
  inferInstanceAs (Decidable (text = "*" ∨ text.toList.head? = some '/'))

/-- A URI, for the text of its path and query. In an absolute URI the path may be empty and the
text start with the query; where only an authority is given, there is no text. -/
structure Uri where
  pathAndQuery : Option String
  form : ∀ text ∈ pathAndQuery, Relative text ∨ text.toList.head? = some '?'
  deriving DecidableEq

namespace Uri

/-- What is requested of the backend. -/
def target (uri : Uri) : String := uri.pathAndQuery.getD "/"

/-- Read the text of a path and query as a URI. -/
def parse (text : String) : Option Uri :=
  if relative : Relative text then
    some ⟨some text, fun _ same => .inl (Option.some.inj same ▸ relative)⟩
  else none

lemma target_of_parse {text : String} {uri : Uri} (parsed : parse text = some uri) :
    uri.target = text := by
  unfold parse at parsed
  split at parsed
  · cases parsed
    rfl
  · cases parsed

end Uri

structure Inbound where
  method : Method
  uri : Uri
  headers : HeaderMap
  deriving DecidableEq

def isWebsocketUpgrade (req : Inbound) : Bool :=
  headerContainsToken req.headers .connection "upgrade" &&
    headerContainsToken req.headers .upgrade "websocket"

example : isWebsocketUpgrade ⟨.get, ⟨none, by simp⟩,
    [(.connection, asciiValue "keep-alive, Upgrade"), (.upgrade, asciiValue "WebSocket")]⟩ = true := by
  decide

/-- What the rest of the handler reads of the request. -/
def Inbound.summary (req : Inbound) : Service.Request where
  host := (req.headers.get .host).map fun value => value.toStr.map String.ofList
  method := req.method
  uri := req.uri.target
  upgrade := isWebsocketUpgrade req

end NScale.Http
