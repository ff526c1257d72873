import NScale.HttpRequest
import NScale.MultiMap

/-!
# The headers that cross the proxy

`forward_request` copies the headers of a request to the request for the backend, but for nine
names, and all headers of the backend's response to the response that it returns. Fields that
concern one connection only are those names and what a `Connection` header nominates.
-/
namespace NScale.HeaderRelay
open Http
open Service (Method ForwardRequestError)

/-- A field of a message as it is sent. -/
abbrev Field := HeaderName × HeaderValue

/-- The headers of a message that has been received. -/
def received (fields : List Field) : HeaderMap := MultiMap.ofEntries fields

structure Outbound where
  method : Method
  url : String
  headers : HeaderMap
  deriving DecidableEq

structure ResponseHead where
  status : ℕ
  headers : HeaderMap
  deriving DecidableEq

def Endpoint.baseUrl (scheme : String) (ep : Endpoint) : String :=
  scheme ++ "://" ++ ep.host ++ ":" ++ toString ep.port

/-- One of the two loops over headers: those that are not skipped are appended. -/
def copyHeaders (skips : HeaderName → Bool) (headers : HeaderMap) : HeaderMap :=
  headers.foldl (fun copied header =>
    if skips header.1 then copied else MultiMap.append header.1 header.2 copied) []

/-- The request that is sent to the backend. -/
def outbound (backend : Endpoint) (req : Inbound) : Outbound where
  method := req.method
  url := Endpoint.baseUrl "http" backend ++ req.uri.target
  headers := copyHeaders (fun name => name.text ∈ skipped) req.headers

/-- The response that is made of the backend's. -/
def returned (response : ResponseHead) : ResponseHead where
  status := if 100 ≤ response.status ∧ response.status < 1000 then response.status else 502
  headers := copyHeaders (fun _ => false) response.headers

def forwardRequest (send : Outbound → Except ForwardRequestError ResponseHead) (backend : Endpoint)
    (req : Inbound) : Except ForwardRequestError ResponseHead :=
  (send (outbound backend req)).map returned

/-! ## Fields of one connection -/

inductive Direction
  | request
  | response
  deriving DecidableEq, Repr

/-- The names of the fields that concern one connection. -/
def hopByHop : Direction → List String
  | .request => skipped
  | .response =>
    ["connection", "keep-alive", "transfer-encoding", "te", "trailer", "upgrade", "proxy-connection"]

/-- The field concerns more than the connection that the message came in on. -/
def crosses (dir : Direction) (headers : HeaderMap) (name : HeaderName) : Bool :=
  name.text ∉ hopByHop dir && !headerContainsToken headers .connection name.text

/-- The headers without those of one connection. -/
def crossing (dir : Direction) (headers : HeaderMap) : HeaderMap :=
  headers.filter fun header => crosses dir headers header.1

/-- One request and the response of the backend, as they are sent. -/
structure Exchange where
  method : Method
  uri : Uri
  fields : List Field
  status : ℕ
  responseFields : List Field

namespace Exchange
variable (x y : Exchange) (backend : Endpoint)

def inbound : Inbound := ⟨x.method, x.uri, received x.fields⟩

def head : ResponseHead := ⟨x.status, received x.responseFields⟩

/-- The headers that `forward_request` reads. -/
def original : Direction → HeaderMap
  | .request => x.inbound.headers
  | .response => x.head.headers

/-- The headers that it copies. -/
def relayed : Direction → HeaderMap
  | .request => (outbound backend x.inbound).headers
  | .response => (returned x.head).headers

/-- No field of one connection is relayed, and every other one is, in its place. -/
def Relays (dir : Direction) : Prop :=
  (∀ header ∈ x.relayed backend dir, crosses dir (x.original dir) header.1) ∧
    (x.relayed backend dir).filter (fun header => crosses dir (x.original dir) header.1) =
      crossing dir (x.original dir)

/-- Messages that differ only in fields of one connection are relayed alike. -/
def Alike (dir : Direction) : Prop :=
  crossing dir (x.original dir) = crossing dir (y.original dir) →
    x.relayed backend dir = y.relayed backend dir

/-- What a token of a `Connection` header of the request nominates is skipped by its name, and
the response has no field of one connection at all. -/
def Plain : Prop :=
  (∀ header ∈ x.inbound.headers,
    headerContainsToken x.inbound.headers .connection header.1.text = true → header.1.text ∈ skipped) ∧
  ∀ header ∈ x.head.headers, header.1.text ∉ hopByHop .response

end Exchange

/-! ## What is copied -/

lemma copyHeaders_received (skips : HeaderName → Bool) (fields : List Field) :
    copyHeaders skips (received fields) = (received fields).filter fun header => !skips header.1 := by
  have grouped : MultiMap.Grouped (received fields) := MultiMap.grouped_ofEntries fields
  have copied := MultiMap.ofEntries_filter grouped fun name => !skips name
  rw [MultiMap.ofEntries, List.foldl_filter] at copied
  rw [← copied, copyHeaders]
  congr 1
  funext headers header
  cases skips header.1 <;> rfl

/-- The names that are not copied. -/
def skips : Direction → HeaderName → Bool
  | .request, name => name.text ∈ skipped
  | .response, _ => false

section
variable {x y : Exchange} {backend : Endpoint} {dir : Direction} {headers : HeaderMap} {name : HeaderName}

lemma relayed_eq (x : Exchange) (backend : Endpoint) (dir : Direction) :
    x.relayed backend dir = (x.original dir).filter fun header => !skips dir header.1 := by
  cases dir with
  | request => exact copyHeaders_received (skips .request) x.fields
  | response => exact copyHeaders_received (skips .response) x.responseFields

/-- What is not copied concerns one connection. -/
lemma not_skips (cross : crosses dir headers name = true) : (!skips dir name) = true := by
  cases dir with
  | request =>
    have other : name.text ∉ skipped := of_decide_eq_true (Bool.and_eq_true_iff.mp cross).1
    simpa [skips] using other
  | response => rfl

/-- All that is copied concerns more than one connection. -/
def Clean (dir : Direction) (headers : HeaderMap) : Prop :=
  ∀ header ∈ headers, (!skips dir header.1) = true → crosses dir headers header.1 = true

/-- Then nothing else is copied. -/
lemma relayed_of_clean (clean : Clean dir (x.original dir)) :
    x.relayed backend dir = crossing dir (x.original dir) := by
  rw [relayed_eq]
  apply List.filter_congr
  intro header mem
  rw [Bool.eq_iff_iff]
  exact ⟨clean header mem, not_skips⟩

lemma relays_iff_clean : x.Relays backend dir ↔ Clean dir (x.original dir) := by
  constructor
  · rintro ⟨dropped, -⟩ header mem copied
    apply dropped header
    rw [relayed_eq]
    exact List.mem_filter.mpr ⟨mem, copied⟩
  · intro clean
    rw [Exchange.Relays, relayed_of_clean clean]
    exact ⟨fun header mem => (List.mem_filter.mp mem).2, by simp [crossing]⟩

/-- Where nothing else is copied, messages with the same crossing headers are relayed alike. -/
lemma alike_of_clean (one : Clean dir (x.original dir)) (two : Clean dir (y.original dir)) :
    x.Alike y backend dir := by
  intro same
  rw [relayed_of_clean one, relayed_of_clean two, same]

lemma headerContainsToken_absent {token : String} (absent : ∀ header ∈ headers, header.1 ≠ name) :
    headerContainsToken headers name token = false := by
  have none_ : headers.getAll name = [] := by
    simpa [HeaderMap.getAll] using absent
  rw [headerContainsToken, none_, List.any_nil]

lemma clean_request : Clean .request headers ↔ ∀ header ∈ headers,
    headerContainsToken headers .connection header.1.text = true → header.1.text ∈ skipped := by
  refine forall₂_congr fun header _ => ?_
  by_cases skip : header.1.text ∈ skipped
  · simp [skips, skip]
  · simp [skips, crosses, hopByHop, skip]

lemma clean_response : Clean .response headers ↔
    ∀ header ∈ headers, header.1.text ∉ hopByHop .response := by
  constructor
  · intro clean header mem
    have cross := clean header mem rfl
    exact of_decide_eq_true (Bool.and_eq_true_iff.mp cross).1
  · intro plain header mem _
    have absent : ∀ header ∈ headers, header.1 ≠ .connection := by
      intro header mem same
      apply plain header mem
      rw [same]
      decide
    rw [crosses, headerContainsToken_absent absent]
    simp [plain header mem]

lemma plain_iff_clean : x.Plain ↔ ∀ dir, Clean dir (x.original dir) := by
  constructor
  · rintro ⟨request, response⟩ dir
    cases dir with
    | request => exact clean_request.mpr request
    | response => exact clean_response.mpr response
  · intro clean
    exact ⟨clean_request.mp (clean .request), clean_response.mp (clean .response)⟩

end

/-- Two exchanges are relayed without the fields of one connection, and alike where they differ
in nothing else, if and only if both have none of these fields that is not skipped by name. -/
theorem relays_iff (x y : Exchange) (backend : Endpoint) :
    (∀ dir, x.Relays backend dir ∧ y.Relays backend dir ∧ x.Alike y backend dir) ↔
      x.Plain ∧ y.Plain := by
  constructor
  · intro all
    have one (dir : Direction) : Clean dir (x.original dir) := relays_iff_clean.mp (all dir).1
    have two (dir : Direction) : Clean dir (y.original dir) := relays_iff_clean.mp (all dir).2.1
    exact ⟨plain_iff_clean.mpr one, plain_iff_clean.mpr two⟩
  · rintro ⟨one, two⟩ dir
    have one := plain_iff_clean.mp one dir
    have two := plain_iff_clean.mp two dir
    exact ⟨relays_iff_clean.mpr one, relays_iff_clean.mpr two, alike_of_clean one two⟩

/-- The client asks that its `x-trace` goes no further than the proxy. -/
def tracedExchange : Exchange where
  method := .get
  uri := ⟨some "/docs", by decide⟩
  fields := [(.host, asciiValue "docs.localhost"), (.connection, asciiValue "X-Trace"),
    (⟨"x-trace", by decide⟩, asciiValue "1")]
  status := 200
  responseFields := []

theorem nominated_relayed : ¬ ∀ (x y : Exchange) (backend : Endpoint) (dir : Direction),
    x.Relays backend dir ∧ y.Relays backend dir ∧ x.Alike y backend dir := by
  intro all
  have relays := (all tracedExchange tracedExchange ⟨"10.0.0.1", 8080⟩ .request).1
  exact absurd (relays.1 (⟨"x-trace", by decide⟩, asciiValue "1") (by decide)) (by decide)

end NScale.HeaderRelay
