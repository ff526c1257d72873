import NScale.HttpRequest
import NScale.Footprint
import NScale.ProgramTrace

/-!
# The handler and the requests it forwards

The request handler once more, with the requests themselves: what it hands to the two forwarding
functions has headers, and a repetition is built from the saved method and the saved text of the
URI. Where that text cannot be read as a URI, the task panics and its guards are dropped; the code
then returns nothing. Without the headers this is the handler of the service.
-/
namespace NScale.Http
open Service (Method ForwardRequestError Forwarded Response Config Code Within)

/-- An operation of the service, or a request that is handed over to be sent. -/
inductive HttpOp
  | other (op : Service.Op)
  | send (job : JobId) (ep : Endpoint) (req : Inbound)
  deriving DecidableEq

/-- The operation without the headers. -/
def HttpOp.erase : HttpOp → Service.Op
  | .other op => op
  | .send job ep req => .send job ep req.method req.uri.target

abbrev HttpOps : Signature := ⟨HttpOp, fun op => op.erase.Answer⟩

abbrev HttpCode (α : Type) := Program HttpOps α

/-- Code of the service that forwards no requests. -/
def plain {α : Type} (p : Code α) : HttpCode α := p.lift (T := HttpOps) HttpOp.other fun _ r => r

/-- The code without the headers. -/
def erase {α : Type} (p : HttpCode α) : Code α :=
  p.lift (T := Service.Ops) HttpOp.erase fun _ r => r

def buildRetryRequest (method : Method) (uri : String) : Option Inbound :=
  (Uri.parse uri).map fun uri => ⟨method, uri, []⟩

def send (job : JobId) (ep : Endpoint) (req : Inbound) : HttpCode Unit :=
  Program.call (S := HttpOps) (.send job ep req)

def forwardRequest (job : JobId) (ep : Endpoint) (req : Inbound) : HttpCode Forwarded := do
  send job ep req
  plain (Service.perform .response)

def Endpoint.address (ep : Endpoint) : HeaderValue :=
  (ep.host ++ ":" ++ toString ep.port).toUTF8.toList

def forwardWebsocketUpgrade (job : JobId) (ep : Endpoint) (req : Inbound) :
    HttpCode (Option Forwarded) := do
  match ← plain (Service.perform (.connect ep)) with
  | .error e =>
    plain Service.dropLifecycle
    return some (.error e)
  | .ok () =>
    match Uri.parse req.uri.target with
    | none =>
      plain Service.dropLifecycle
      return none
    | some uri =>
      send job ep ⟨req.method, uri, req.headers.insert .host (Endpoint.address ep)⟩
      match ← plain (Service.perform .upgradeResponse) with
      | .error e =>
        plain Service.dropLifecycle
        return some (.error e)
      | .ok resp =>
        if resp.status = Service.switchingProtocols then plain (Service.perform (.spawn .tunnel))
        else plain Service.dropLifecycle
        return some (.ok resp)

/-- Send the request again, as far as it has been saved. -/
def again (job : JobId) (ep : Endpoint) (method : Method) (uri : String) :
    HttpCode (Option Forwarded) := do
  match buildRetryRequest method uri with
  | none => return none
  | some req =>
    let outcome ← forwardRequest job ep req
    return some outcome

def retry (job : JobId) (ep : Endpoint) (method : Method) (uri : String)
    (err : ForwardRequestError) : List ℕ → HttpCode (Option (Except ForwardRequestError Response))
  | [] => return some (.error err)
  | millis :: delays => do
    plain (Service.perform (.sleep millis))
    match ← again job ep method uri with
    | none => return none
    | some (.ok resp) => return some (.ok (.backend resp))
    | some (.error e) =>
      if e.isRetryableTransport then retry job ep method uri e delays
      else return some (.ok (.reply e.statusCode ""))

section
variable (cfg : Config) (reg : JobRegistration)

/-- The request is sent to an endpoint that has just been found. -/
def clearAndForward (ep : Endpoint) (method : Method) (uri : String) : HttpCode (Option Response) := do
  plain (Service.clearMissingJobCounter cfg reg.jobId)
  match ← again reg.jobId ep method uri with
  | none => return none
  | some outcome => return some (Service.toResponse outcome)

/-- The job is missing in Nomad. -/
def cancelAndHandle (source : String) : HttpCode (Option Response) := do
  plain (Service.perform .cancelHeartbeat)
  let resp ← plain (Service.handleMissingJob cfg reg.jobId source)
  return some resp

def rewake (method : Method) (uri : String) : HttpCode (Option Response) := do
  match ← plain (Service.ensureRunning reg) with
  | .ok ep => clearAndForward cfg reg ep method uri
  | .error (.jobNotFound _) => cancelAndHandle cfg reg "rewake"
  | .error e => return some (.reply 503 ("retry wake error: " ++ e.toText))

def refreshAndRetry (ep : Endpoint) (method : Method) (uri : String) (err : ForwardRequestError) :
    HttpCode (Option Response) := do
  match ← plain (Service.refreshEndpoint reg ep) with
  | .ok (.confirmed _) =>
    plain (Service.clearMissingJobCounter cfg reg.jobId)
    return some (.reply err.statusCode "")
  | .ok (.updated refreshed) => clearAndForward cfg reg refreshed method uri
  | .ok .missing => rewake cfg reg method uri
  | .error (.jobNotFound _) => cancelAndHandle cfg reg "refresh"
  | .error _ => return some (.reply 502 "")

def serveOrdinary (req : Inbound) (ep : Endpoint) : HttpCode (Option Response) := do
  match ← forwardRequest reg.jobId ep req with
  | .ok resp => return some (.backend resp)
  | .error err =>
    if !err.isRetryableTransport then return some (.reply err.statusCode "")
    else
      match Service.replayableMethod req.method with
      | none => return some (.reply err.statusCode "")
      | some method =>
        match ← retry reg.jobId ep method req.uri.target err Service.transientRetryBackoff with
        | none => return none
        | some (.ok resp) => return some resp
        | some (.error err) => refreshAndRetry cfg reg ep method req.uri.target err

def serve (req : Inbound) (ep : Endpoint) : HttpCode (Option Response) := do
  plain (Service.perform (.track reg.jobId))
  plain (Service.perform (.startHeartbeat reg.jobId))
  if isWebsocketUpgrade req then
    match ← forwardWebsocketUpgrade reg.jobId ep req with
    | none => return none
    | some outcome => return some (Service.toResponse outcome)
  else
    let resp ← serveOrdinary cfg reg req ep
    plain (Service.perform .cancelHeartbeat)
    plain (Service.perform .dropGuard)
    return resp

def wakeAndServe (req : Inbound) : HttpCode (Option Response) := do
  match ← plain (Service.ensureRunning reg) with
  | .ok ep =>
    plain (Service.clearMissingJobCounter cfg reg.jobId)
    serve cfg reg req ep
  | .error (.jobNotFound _) =>
    let resp ← plain (Service.handleMissingJob cfg reg.jobId "wake")
    return some resp
  | .error e => return some (.reply 503 ("wake error: " ++ e.toText))

end

def proxyHandler (cfg : Config) (req : Inbound) : HttpCode (Option Response) := do
  match req.headers.get .host with
  | none => return some (.reply 400 "missing Host header")
  | some value =>
    let host := (value.toStr.map String.ofList).getD ""
    match ← plain (Service.registry (JobRegistry.get cfg.durable ⟨Service.firstLabel host⟩)) with
    | .error _ => return some (.reply 500 "registry error")
    | .ok none => return some (.reply 404 "service not registered")
    | .ok (some reg) => wakeAndServe cfg reg req

/-! ## Without the headers -/

section
variable {α β : Type} {cfg : Config} {req : Inbound}

lemma erase_plain (p : Code α) : erase (plain p) = p := by
  induction p with
  | pure a => rfl
  | perform op next ih => exact congrArg (Program.perform op) (funext ih)

lemma erase_bind (p : HttpCode α) (f : α → HttpCode β) :
    erase (p >>= f) = erase p >>= fun a => erase (f a) := Program.lift_bind p f

/-- Code of the service in front. -/
lemma erase_plain_bind (p : Code α) (f : α → HttpCode β) :
    erase (plain p >>= f) = p >>= fun a => erase (f a) := by rw [erase_bind, erase_plain]

@[simp] lemma erase_pure (a : α) : erase (pure a : HttpCode α) = pure a := rfl

lemma erase_send (job : JobId) (ep : Endpoint) :
    erase (send job ep req) = Service.perform (.send job ep req.method req.uri.target) := rfl

lemma erase_forwardRequest (job : JobId) (ep : Endpoint) :
    erase (forwardRequest job ep req) = Service.forwardRequest job ep req.method req.uri.target := rfl

variable {uri : Uri}

lemma erase_forwardWebsocketUpgrade (job : JobId) (ep : Endpoint)
    (parsed : Uri.parse req.uri.target = some uri) :
    erase (forwardWebsocketUpgrade job ep req) =
      some <$> Service.forwardWebsocketUpgrade job ep req.summary := by
  have same : uri.target = req.uri.target := Uri.target_of_parse parsed
  unfold forwardWebsocketUpgrade Service.forwardWebsocketUpgrade
  rw [erase_plain_bind, map_bind]
  refine bind_congr fun connected => ?_
  cases connected with
  | error e => rw [erase_plain_bind, map_bind]; rfl
  | ok _ =>
    dsimp only
    rw [parsed]
    dsimp only
    rw [erase_bind, erase_send, same, map_bind]
    refine bind_congr fun _ => ?_
    rw [erase_plain_bind, map_bind]
    refine bind_congr fun outcome => ?_
    cases outcome with
    | error e => rw [erase_plain_bind, map_bind]; rfl
    | ok resp =>
      dsimp only
      split <;> rw [erase_plain_bind, map_bind] <;> rfl

lemma erase_again (job : JobId) (ep : Endpoint) (method : Method) {text : String}
    (parsed : Uri.parse text = some uri) :
    erase (again job ep method text) = some <$> Service.forwardRequest job ep method text := by
  have same : uri.target = text := Uri.target_of_parse parsed
  unfold again buildRetryRequest
  rw [parsed, Option.map_some]
  dsimp only
  rw [erase_bind, erase_forwardRequest, same]
  rfl

section
variable (reg : JobRegistration) (ep : Endpoint) (method : Method) {text : String}

lemma erase_retry (parsed : Uri.parse text = some uri) (err : ForwardRequestError)
    (delays : List ℕ) :
    erase (retry reg.jobId ep method text err delays) =
      some <$> Service.retry reg.jobId ep method text err delays := by
  induction delays generalizing err with
  | nil => rfl
  | cons millis delays ih =>
    unfold retry Service.retry
    rw [erase_plain_bind, map_bind]
    refine bind_congr fun _ => ?_
    rw [erase_bind, erase_again reg.jobId ep method parsed, map_bind, bind_map_left]
    refine bind_congr fun outcome => ?_
    cases outcome with
    | ok resp => rfl
    | error e =>
      dsimp only
      split
      · exact ih e
      · rfl

lemma erase_clearAndForward (parsed : Uri.parse text = some uri) :
    erase (clearAndForward cfg reg ep method text) = some <$> (do
      Service.clearMissingJobCounter cfg reg.jobId
      return Service.toResponse (← Service.forwardRequest reg.jobId ep method text)) := by
  unfold clearAndForward
  rw [erase_plain_bind, map_bind]
  refine bind_congr fun _ => ?_
  rw [erase_bind, erase_again reg.jobId ep method parsed, map_bind, bind_map_left]
  rfl

lemma erase_cancelAndHandle (source : String) :
    erase (cancelAndHandle cfg reg source) = some <$> (do
      Service.perform .cancelHeartbeat
      Service.handleMissingJob cfg reg.jobId source) := by
  unfold cancelAndHandle
  rw [erase_plain_bind, map_bind]
  refine bind_congr fun _ => ?_
  rw [erase_plain_bind]
  rfl

lemma erase_rewake (parsed : Uri.parse text = some uri) :
    erase (rewake cfg reg method text) = some <$> Service.rewake cfg reg method text := by
  unfold rewake Service.rewake
  rw [erase_plain_bind, map_bind]
  refine bind_congr fun woken => ?_
  split
  next => exact erase_clearAndForward reg _ method parsed
  next => exact erase_cancelAndHandle reg "rewake"
  next e other =>
    cases e with
    | jobNotFound job => exact absurd rfl (other job)
    | _ => rfl

lemma erase_refreshAndRetry (parsed : Uri.parse text = some uri) (err : ForwardRequestError) :
    erase (refreshAndRetry cfg reg ep method text err) =
      some <$> Service.refreshAndRetry cfg reg ep method text err := by
  unfold refreshAndRetry Service.refreshAndRetry
  rw [erase_plain_bind, map_bind]
  refine bind_congr fun refreshed => ?_
  split
  next =>
    rw [erase_plain_bind, map_bind]
    rfl
  next => exact erase_clearAndForward reg _ method parsed
  next => exact erase_rewake reg method parsed
  next => exact erase_cancelAndHandle reg "refresh"
  next e other =>
    cases e with
    | jobNotFound job => exact absurd rfl (other job)
    | _ => rfl

variable (parsed : Uri.parse req.uri.target = some uri)
include parsed

lemma erase_serveOrdinary :
    erase (serveOrdinary cfg reg req ep) = some <$> Service.serveOrdinary cfg req.summary reg ep := by
  unfold serveOrdinary Service.serveOrdinary
  rw [erase_bind, erase_forwardRequest, map_bind]
  refine bind_congr fun outcome => ?_
  cases outcome with
  | ok resp => rfl
  | error err =>
    dsimp only
    split
    · rfl
    · change erase (match Service.replayableMethod req.method with | none => _ | some method => _) =
        some <$> (match Service.replayableMethod req.method with | none => _ | some method => _)
      cases Service.replayableMethod req.method with
      | none => rfl
      | some method =>
        dsimp only
        rw [erase_bind, erase_retry reg ep method parsed, map_bind, bind_map_left]
        refine bind_congr fun result => ?_
        cases result with
        | ok resp => rfl
        | error err => exact erase_refreshAndRetry reg ep method parsed err

lemma erase_serve : erase (serve cfg reg req ep) = some <$> Service.serve cfg req.summary reg ep := by
  unfold serve Service.serve
  rw [erase_plain_bind, map_bind]
  refine bind_congr fun _ => ?_
  rw [erase_plain_bind, map_bind]
  refine bind_congr fun _ => ?_
  change erase (if isWebsocketUpgrade req = true then _ else _) =
    some <$> (if isWebsocketUpgrade req = true then _ else _)
  split
  · rw [erase_bind, erase_forwardWebsocketUpgrade reg.jobId ep parsed, map_bind, bind_map_left]
    rfl
  · rw [erase_bind, erase_serveOrdinary reg ep parsed, map_bind, bind_map_left]
    refine bind_congr fun resp => ?_
    rw [erase_plain_bind, map_bind]
    refine bind_congr fun _ => ?_
    rw [erase_plain_bind, map_bind]
    rfl

lemma erase_wakeAndServe :
    erase (wakeAndServe cfg reg req) = some <$> Service.wakeAndServe cfg req.summary reg := by
  unfold wakeAndServe Service.wakeAndServe
  rw [erase_plain_bind, map_bind]
  refine bind_congr fun woken => ?_
  split
  next =>
    rw [erase_plain_bind, map_bind]
    exact bind_congr fun _ => erase_serve reg _ parsed
  next =>
    rw [erase_plain_bind]
    rfl
  next e other =>
    cases e with
    | jobNotFound job => exact absurd rfl (other job)
    | _ => rfl

end

/-- Where the text of the URI can be read again, the handler does without the headers what the
handler of the service does, and returns. -/
theorem erase_proxyHandler (cfg : Config) (req : Inbound)
    (readable : Relative req.uri.target) :
    erase (proxyHandler cfg req) = some <$> Service.proxyHandler cfg req.summary := by
  obtain ⟨uri, parsed⟩ : ∃ uri, Uri.parse req.uri.target = some uri := ⟨_, dif_pos readable⟩
  unfold proxyHandler Service.proxyHandler Inbound.summary
  dsimp only
  cases req.headers.get .host with
  | none => rfl
  | some value =>
    dsimp only [Option.map_some]
    rw [erase_plain_bind, map_bind]
    refine bind_congr fun found => ?_
    split
    · rfl
    · rfl
    · exact erase_wakeAndServe _ parsed

end
end NScale.Http
