import NScale.Job

/-!
# The endpoint of a running job

`get_healthy_endpoint` of the Nomad client on the allocations that Nomad lists for a job. The
allocation is selected before its endpoint is derived.
-/
namespace NScale.NomadClient

structure Port where
  label : String
  value : UInt16
  deriving DecidableEq, Repr

structure PortMapping where
  label : String
  value : UInt16
  to_ : UInt16
  hostIp : String
  deriving DecidableEq, Repr

structure NetworkResource where
  ip : String
  dynamicPorts : List Port
  reservedPorts : List Port
  deriving DecidableEq, Repr

structure SharedResources where
  ports : List PortMapping
  networks : List NetworkResource
  deriving DecidableEq, Repr

structure AllocatedResources where
  shared : Option SharedResources
  deriving DecidableEq, Repr

structure AllocResources where
  networks : List NetworkResource
  deriving DecidableEq, Repr

structure Allocation where
  id : String
  jobId : String
  clientStatus : String
  desiredStatus : String
  taskGroup : String
  resources : Option AllocResources
  allocatedResources : Option AllocatedResources
  deriving DecidableEq, Repr

def Allocation.isRunning (a : Allocation) : Bool :=
  a.clientStatus = "running" && a.desiredStatus = "run"

/-- The host of a port mapping: its own address, or else that of the first network. -/
def portHost (shared : SharedResources) (port : PortMapping) : String :=
  if port.hostIp = "" || port.hostIp = "0.0.0.0" then
    (shared.networks.head?.map NetworkResource.ip).getD "127.0.0.1"
  else port.hostIp

/-- The endpoint by `allocated_resources.shared.ports`. -/
def sharedEndpoint (alloc : Allocation) : Option Endpoint := do
  let allocated ← alloc.allocatedResources
  let shared ← allocated.shared
  let port ← shared.ports.head?
  return ⟨portHost shared port, port.value⟩

/-- The endpoint by `resources.networks`. -/
def networkEndpoint (alloc : Allocation) : Option Endpoint := do
  let resources ← alloc.resources
  let net ← resources.networks.head?
  let port ← net.dynamicPorts.head?.or net.reservedPorts.head?
  return ⟨net.ip, port.value⟩

def extractEndpoint (alloc : Allocation) : Option Endpoint :=
  (sharedEndpoint alloc).or (networkEndpoint alloc)

/-- `get_healthy_endpoint` on the answer of `get_allocations`. -/
def getHealthyEndpoint (allocs : Result (List Allocation)) : Result (Option Endpoint) := do
  match (← allocs).find? Allocation.isRunning with
  | some alloc => return extractEndpoint alloc
  | none => return none

/-- The lookup finds an endpoint exactly when a running allocation has one, and it finds the
endpoint of such an allocation. -/
def FindsEndpoint (allocs : List Allocation) : Prop :=
  ∃ found, getHealthyEndpoint (.ok allocs) = .ok found ∧
    (found.isSome ↔ ∃ a ∈ allocs, a.isRunning ∧ (extractEndpoint a).isSome) ∧
    ∀ ep, found = some ep → ∃ a ∈ allocs, a.isRunning ∧ extractEndpoint a = some ep

variable {allocs : List Allocation}

/-- The first running allocation decides, alone. -/
lemma getHealthyEndpoint_eq (allocs : List Allocation) :
    getHealthyEndpoint (.ok allocs) = .ok ((allocs.find? Allocation.isRunning).bind extractEndpoint) := by
  change (match allocs.find? Allocation.isRunning with
    | some alloc => Pure.pure (extractEndpoint alloc)
    | none => Pure.pure none) = (Except.ok _ : Result (Option Endpoint))
  cases allocs.find? Allocation.isRunning <;> rfl

/-- Nothing is lost exactly when the first running allocation has an endpoint, or no running
allocation has one. -/
theorem findsEndpoint_iff (allocs : List Allocation) :
    FindsEndpoint allocs ↔ ∀ a ∈ (allocs.filter Allocation.isRunning).head?,
      (extractEndpoint a).isSome ∨ ∀ b ∈ allocs, b.isRunning → extractEndpoint b = none := by
  rw [List.head?_filter, FindsEndpoint]
  constructor
  · rintro ⟨found, lookup, complete, -⟩ a first
    rw [getHealthyEndpoint_eq, Option.mem_def.mp first] at lookup
    obtain rfl := Except.ok.inj lookup
    by_cases usable : (extractEndpoint a).isSome
    · exact .inl usable
    · right
      intro b mem running
      by_contra has
      have lost := complete.mpr ⟨b, mem, running, Option.isSome_iff_ne_none.mpr has⟩
      exact usable lost
  · intro decides
    refine ⟨_, getHealthyEndpoint_eq allocs, ?_⟩
    cases first : allocs.find? Allocation.isRunning with
    | none =>
      have idle := List.find?_eq_none.mp first
      refine ⟨⟨nofun, ?_⟩, nofun⟩
      rintro ⟨a, mem, running, -⟩
      exact absurd running (idle a mem)
    | some a =>
      have mem := List.mem_of_find?_eq_some first
      have running : a.isRunning := List.find?_some first
      refine ⟨⟨fun usable => ⟨a, mem, running, usable⟩, ?_⟩, fun ep found => ⟨a, mem, running, found⟩⟩
      rintro ⟨b, mem', running', usable'⟩
      rcases decides a first with usable | none_
      · exact usable
      · rw [none_ b mem' running'] at usable'
        cases usable'

/-- A running allocation of a group without ports. -/
def portless : Allocation :=
  ⟨"5f1d", "shop", "running", "run", "worker", some ⟨[]⟩, some ⟨some ⟨[], []⟩⟩⟩

def served : Allocation :=
  ⟨"9c2e", "shop", "running", "run", "web", none,
    some ⟨some ⟨[⟨"http", 8080, 80, "10.0.0.7"⟩], []⟩⟩⟩

theorem endpoint_missed : getHealthyEndpoint (.ok [portless, served]) = .ok none ∧
    extractEndpoint served = some ⟨"10.0.0.7", 8080⟩ ∧ ¬ FindsEndpoint [portless, served] := by
  refine ⟨by decide, by decide, ?_⟩
  rintro ⟨found, lookup, complete, -⟩
  have none_ : getHealthyEndpoint (.ok [portless, served]) = .ok none := by decide
  obtain rfl := Except.ok.inj (lookup.symm.trans none_)
  exact absurd (complete.mpr ⟨served, by decide, by decide, by decide⟩) (by decide)

end NScale.NomadClient
