import NScale.Service

/-!
# The proxy

`crates/nscale-proxy`: the activity layer, the request handler and the forwarding of requests.
The in-flight guard and the guard that cancels the heartbeat are dropped where their owner
goes out of scope: at the end of `serve` for ordinary requests, in the tunnel task for an
established WebSocket, in the upgrade function otherwise.
-/
namespace NScale.Service

/-- `TRANSIENT_RETRY_BACKOFF_MS`. -/
def transientRetryBackoff : List ℕ := [100, 250]

def replayableMethod : Method → Option Method
  | .get => some .get
  | .head => some .head
  | .other _ => none

/-- The first label of a host, without a port. -/
def firstLabel (host : String) : String :=
  String.ofList ((host.toList.takeWhile (· ≠ '.')).takeWhile (· ≠ ':'))

/-- `extract_job_id_from_host` on the header of a request. -/
def extractJobId (host : Option (Option String)) : Option JobId :=
  match host with
  | some (some text) => if firstLabel text = "" then none else some ⟨firstLabel text⟩
  | _ => none

section
variable (cfg : Config)

def cleanupMissingJobState (job : JobId) : Code (Result Unit) := do
  markDormant job
  let _ ← perform (.zrem job)
  match ← registry (JobRegistry.deregister cfg.durable job) with
  | .error e => return .error e
  | .ok () =>
    let _ ← perform (.clearNotFound job)
    return .ok ()

def handleMissingJob (job : JobId) (source : String) : Code Response := do
  if !cfg.autoDeregisterEnabled then
    return .reply 503 ("service missing in Nomad during " ++ source)
  else
    match ← perform (.incrementNotFound job) with
    | .error _ => return .reply 503 "service unavailable while tracking stale registration"
    | .ok count =>
      if cfg.autoDeregisterThreshold ≤ count then
        match ← cleanupMissingJobState cfg job with
        | .ok () => return .reply 404 "service not registered"
        | .error e =>
          return .reply 503 ("service missing in Nomad and cleanup failed: " ++ e.toText)
      else
        return .reply 503 ("service missing in Nomad (" ++ toString count ++ "/" ++
          toString cfg.autoDeregisterThreshold ++ ")")

def forwardRequest (job : JobId) (ep : Endpoint) (method : Method) (uri : String) :
    Code Forwarded := do
  perform (.send job ep method uri)
  perform .response

/-- The fields of the `WebSocketLifecycle` are dropped. -/
def dropLifecycle : Code Unit := do
  perform .dropGuard
  perform .cancelHeartbeat

def forwardWebsocketUpgrade (job : JobId) (ep : Endpoint) (req : Request) : Code Forwarded := do
  match ← perform (.connect ep) with
  | .error e =>
    dropLifecycle
    return .error e
  | .ok () =>
    perform (.send job ep req.method req.uri)
    match ← perform .upgradeResponse with
    | .error e =>
      dropLifecycle
      return .error e
    | .ok resp =>
      if resp.status = switchingProtocols then perform (.spawn .tunnel) else dropLifecycle
      return .ok resp

def toResponse : Forwarded → Response
  | .ok resp => .backend resp
  | .error e => .reply e.statusCode ""

/-- The retry loop: a response to return, or the error of the last attempt. -/
def retry (job : JobId) (ep : Endpoint) (method : Method) (uri : String)
    (err : ForwardRequestError) : List ℕ → Code (Except ForwardRequestError Response)
  | [] => return .error err
  | millis :: delays => do
    perform (.sleep millis)
    match ← forwardRequest job ep method uri with
    | .ok resp => return .ok (.backend resp)
    | .error e =>
      if e.isRetryableTransport then retry job ep method uri e delays
      else return .ok (.reply e.statusCode "")

/-- What follows a job that is missing from the refresh: it is woken again. -/
def rewake (reg : JobRegistration) (method : Method) (uri : String) : Code Response := do
  match ← ensureRunning reg with
  | .ok ep =>
    clearMissingJobCounter cfg reg.jobId
    return toResponse (← forwardRequest reg.jobId ep method uri)
  | .error (.jobNotFound _) =>
    perform .cancelHeartbeat
    handleMissingJob cfg reg.jobId "rewake"
  | .error e => return .reply 503 ("retry wake error: " ++ e.toText)

/-- What follows the retries: the endpoint is refreshed. -/
def refreshAndRetry (reg : JobRegistration) (ep : Endpoint) (method : Method) (uri : String)
    (err : ForwardRequestError) : Code Response := do
  match ← refreshEndpoint reg ep with
  | .ok (.confirmed _) =>
    clearMissingJobCounter cfg reg.jobId
    return .reply err.statusCode ""
  | .ok (.updated refreshed) =>
    clearMissingJobCounter cfg reg.jobId
    return toResponse (← forwardRequest reg.jobId refreshed method uri)
  | .ok .missing => rewake cfg reg method uri
  | .error (.jobNotFound _) =>
    perform .cancelHeartbeat
    handleMissingJob cfg reg.jobId "refresh"
  | .error _ => return .reply 502 ""

def serveOrdinary (req : Request) (reg : JobRegistration) (ep : Endpoint) : Code Response := do
  match ← forwardRequest reg.jobId ep req.method req.uri with
  | .ok resp => return .backend resp
  | .error err =>
    if !err.isRetryableTransport then return .reply err.statusCode ""
    else
      match replayableMethod req.method with
      | none => return .reply err.statusCode ""
      | some method =>
        match ← retry reg.jobId ep method req.uri err transientRetryBackoff with
        | .ok resp => return resp
        | .error err => refreshAndRetry cfg reg ep method req.uri err

/-- The part of the handler that has an endpoint. -/
def serve (req : Request) (reg : JobRegistration) (ep : Endpoint) : Code Response := do
  perform (.track reg.jobId)
  perform (.startHeartbeat reg.jobId)
  if req.upgrade then return toResponse (← forwardWebsocketUpgrade reg.jobId ep req)
  else
    let resp ← serveOrdinary cfg req reg ep
    perform .cancelHeartbeat
    perform .dropGuard
    return resp

/-- The part of the handler that has a registration. -/
def wakeAndServe (req : Request) (reg : JobRegistration) : Code Response := do
  match ← ensureRunning reg with
  | .ok ep =>
    clearMissingJobCounter cfg reg.jobId
    serve cfg req reg ep
  | .error (.jobNotFound _) => handleMissingJob cfg reg.jobId "wake"
  | .error e => return .reply 503 ("wake error: " ++ e.toText)

def proxyHandler (req : Request) : Code Response := do
  match req.host with
  | none => return .reply 400 "missing Host header"
  | some host =>
    match ← registry (JobRegistry.get cfg.durable ⟨firstLabel (host.getD "")⟩) with
    | .error _ => return .reply 500 "registry error"
    | .ok none => return .reply 404 "service not registered"
    | .ok (some reg) => wakeAndServe cfg req reg

/-- `ActivityService::call` around the handler. -/
def activityService (req : Request) : Code Unit := do
  match extractJobId req.host with
  | none =>
    let _ ← proxyHandler cfg req
    return ()
  | some key =>
    let _ ← recordActivity key
    let _ ← proxyHandler cfg req
    perform (.spawn (.recordActivity key))

end
end NScale.Service
