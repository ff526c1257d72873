import NScale.Transition
import NScale.Job
import NScale.Upsert
import NScale.Json
import NScale.JobMutator
import NScale.TagInjection
import NScale.TagRejection
import NScale.WakeCoordinator
import NScale.WakeInvariant
import NScale.WakeBroadcast
import NScale.WakeCoalescing
import NScale.WakeOwner
import NScale.WakeEndpoints
import NScale.WakeBackend
import NScale.WakePermits
import NScale.WakeQuiescent
import NScale.WakeCycle
import NScale.WakeTurns
import NScale.WakeJoin
import NScale.WakeEpoch
import NScale.WakeAlone
import NScale.JobRegistry
import NScale.RegistryCache
import NScale.RegistryKeys
import NScale.RegistryReplicas
import NScale.RegistryFailures
import NScale.RegistryRemoval
import NScale.RegistryDurability
import NScale.RegistryCompensation
import NScale.EtcdRace
import NScale.ProxyHandler
import NScale.EndpointPinning
import NScale.ScaleDownController
import NScale.AutoDeregister
import NScale.EventProcessor
import NScale.EventReplay
import NScale.Deployment
import NScale.Threads
import NScale.Footprint
import NScale.ExchangeGuard
import NScale.SweepMonitor
import NScale.IdleSweep
import NScale.InFlightProtection
import NScale.SweepLock
import NScale.SweepTurns
import NScale.SweepThread
import NScale.SweepBackoff
import NScale.ScaleDownTrace
import NScale.Text
import NScale.EventStream
import NScale.EventReconnect
import NScale.TrafficProbe
import NScale.Exposition
import NScale.FloatText
import NScale.Occurrence
import NScale.RequestsTotal
import NScale.MissingAnswers
import NScale.MissingEvidence
import NScale.Coordinators
import NScale.MissingMonitor
import NScale.MissingCarriers
import NScale.NomadClient
import NScale.InFlightTracker
import NScale.ActivityLock
import NScale.TagRegistrations
import NScale.EventRetry
import NScale.CleanupRetry
import NScale.ProgramTrace
import NScale.ReplaySafety
import NScale.HttpRequest
import NScale.HttpHandler
import NScale.RetryRequest
import NScale.RegistryListing
import NScale.WakeAbandonment
import NScale.Clock
import NScale.Timing
import NScale.HeaderRelay
import NScale.WakeSemaphore
import NScale.ConsulHealth
import NScale.ConsulWatch
import NScale.AdminApi
import NScale.AdminPurge
import NScale.AdminSubmit
import NScale.Provenance
import NScale.Isolation
import NScale.Channel
import NScale.EtcdClient
import NScale.EtcdRefinement
import NScale.EventDelivery
