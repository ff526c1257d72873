import NScale.Transition

/-! The shared types of `nscale-core`: identifiers, endpoints, registrations and errors. -/
namespace NScale

/-- Unique identifier for a Nomad job. The same type carries lookup strings, which may be
a job id or a service name. -/
structure JobId where
  val : String
  deriving DecidableEq, Repr

/-- Consul service name associated with a Nomad job. -/
structure ServiceName where
  val : String
  deriving DecidableEq, Repr

structure Endpoint where
  host : String
  port : UInt16
  deriving DecidableEq, Repr

/-- Registration entry for a managed job. -/
structure JobRegistration where
  jobId : JobId
  serviceName : ServiceName
  nomadGroup : String
  deriving DecidableEq, Repr

/-- The errors of the program. A source error that only carries text (`reqwest::Error`,
`serde_json::Error`) is represented by that text. -/
inductive NscaleError
  | nomad (msg : String)
  | deploymentInProgress (jobId operation : String)
  | consul (msg : String)
  | store (msg : String)
  | proxy (msg : String)
  | wakeTimeout (jobId : String) (elapsedSecs : ℕ)
  | jobNotFound (jobId : String)
  | jobNotReady (msg : String)
  | wakeAbandoned (jobId : String)
  | config (msg : String)
  | http (msg : String)
  | json (msg : String)
  deriving DecidableEq, Repr

/-- The `Display` text of an error. A configured timeout is a whole number of seconds, so
its one decimal digit is zero. -/
def NscaleError.toText : NscaleError → String
  | .nomad m => "nomad API error: " ++ m
  | .deploymentInProgress j op =>
      "nomad deployment in progress for job " ++ j ++ " while attempting " ++ op
  | .consul m => "consul API error: " ++ m
  | .store m => "store error: " ++ m
  | .proxy m => "proxy error: " ++ m
  | .wakeTimeout j n => "wake timeout for job " ++ j ++ " after " ++ toString n ++ ".0s"
  | .jobNotFound j => "job not found: " ++ j
  | .jobNotReady m => "job not ready: " ++ m
  | .wakeAbandoned j => "wake abandoned for job " ++ j ++ ": all subscribers disconnected"
  | .config m => "configuration error: " ++ m
  | .http m => "HTTP error: " ++ m
  | .json m => "JSON error: " ++ m

abbrev Result (α : Type) := Except NscaleError α

end NScale
