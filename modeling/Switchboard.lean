import Switchboard.Lib.Acyclic
import Switchboard.Lib.Binary64
import Switchboard.Lib.Interference
import Switchboard.Lib.IsoTime
import Switchboard.Lib.JsonNesting
import Switchboard.Lib.JsonObjects
import Switchboard.Lib.JsonPrint
import Switchboard.Lib.JsonText
import Switchboard.Lib.KeySort
import Switchboard.Lib.Program
import Switchboard.Lib.PyText
import Switchboard.Lib.Raising
import Switchboard.Lib.Run
import Switchboard.Lib.SlidingWindow
import Switchboard.Lib.Table
import Switchboard.Lib.Threads
import Switchboard.Lib.Try
import Switchboard.Lib.Tx
import Switchboard.Lib.Url
import Switchboard.Lib.Utf8
import Switchboard.Proof.Activity
import Switchboard.Proof.Adapter
import Switchboard.Proof.AdapterRuns
import Switchboard.Proof.Admission
import Switchboard.Proof.Analytics
import Switchboard.Proof.AssociationUrls
import Switchboard.Proof.Attempts
import Switchboard.Proof.Blocks
import Switchboard.Proof.CanonicalJson
import Switchboard.Proof.Capacity
import Switchboard.Proof.Checkout
import Switchboard.Proof.Coherence
import Switchboard.Proof.Completions
import Switchboard.Proof.Concurrent
import Switchboard.Proof.Credentials
import Switchboard.Proof.DeclaredLimits
import Switchboard.Proof.Diagnostics
import Switchboard.Proof.Evidence
import Switchboard.Proof.Exclusive
import Switchboard.Proof.FileStore
import Switchboard.Proof.Finally
import Switchboard.Proof.FirstCome
import Switchboard.Proof.Identity
import Switchboard.Proof.LocalAdmission
import Switchboard.Proof.LocalSlot
import Switchboard.Proof.Lookups
import Switchboard.Proof.ManagedComments
import Switchboard.Proof.Manifests
import Switchboard.Proof.Monitor
import Switchboard.Proof.OperatorInspections
import Switchboard.Proof.OperatorOutcomes
import Switchboard.Proof.OperatorProgress
import Switchboard.Proof.OperatorRecords
import Switchboard.Proof.OperatorReports
import Switchboard.Proof.ParserErrors
import Switchboard.Proof.Parsers
import Switchboard.Proof.Polling
import Switchboard.Proof.Publication
import Switchboard.Proof.PublicationClaims
import Switchboard.Proof.PytestCounts
import Switchboard.Proof.Quota
import Switchboard.Proof.Ranking
import Switchboard.Proof.RateLimit
import Switchboard.Proof.RelativePath
import Switchboard.Proof.Releases
import Switchboard.Proof.Rendering
import Switchboard.Proof.RequestScopes
import Switchboard.Proof.Reservations
import Switchboard.Proof.Resets
import Switchboard.Proof.RetainedEvidence
import Switchboard.Proof.Retention
import Switchboard.Proof.Reuse
import Switchboard.Proof.Revisions
import Switchboard.Proof.RootedPaths
import Switchboard.Proof.Routing
import Switchboard.Proof.Runs
import Switchboard.Proof.Statements
import Switchboard.Proof.StepEvidence
import Switchboard.Proof.Summary
import Switchboard.Proof.TaskCheckout
import Switchboard.Proof.TaskHistory
import Switchboard.Proof.TaskLeases
import Switchboard.Proof.Tasks
import Switchboard.Proof.Text
import Switchboard.Proof.Transitions
import Switchboard.Proof.TransportErrors
import Switchboard.Proof.ValidationRequests
import Switchboard.Proof.Worker
import Switchboard.Proof.WorkloadProfiles
import Switchboard.Spec.Activity
import Switchboard.Spec.Adapter
import Switchboard.Spec.Analytics
import Switchboard.Spec.Artifacts
import Switchboard.Spec.Capabilities
import Switchboard.Spec.Completion
import Switchboard.Spec.Concurrent
import Switchboard.Spec.Credentials
import Switchboard.Spec.Discovery
import Switchboard.Spec.Enums
import Switchboard.Spec.Evidence
import Switchboard.Spec.FileStore
import Switchboard.Spec.GitHub
import Switchboard.Spec.Identity
import Switchboard.Spec.Json
import Switchboard.Spec.Lifecycle
import Switchboard.Spec.LocalSlot
import Switchboard.Spec.Monitor
import Switchboard.Spec.Operator
import Switchboard.Spec.OperatorProgress
import Switchboard.Spec.OperatorReport
import Switchboard.Spec.OperatorRuntime
import Switchboard.Spec.Parsers
import Switchboard.Spec.Polling
import Switchboard.Spec.Publication
import Switchboard.Spec.RateLimit
import Switchboard.Spec.Registry
import Switchboard.Spec.RelativePath
import Switchboard.Spec.Rendering
import Switchboard.Spec.Repository
import Switchboard.Spec.RetainedEvidence
import Switchboard.Spec.Routing
import Switchboard.Spec.Schemas
import Switchboard.Spec.Service
import Switchboard.Spec.StepEvidence
import Switchboard.Spec.Store
import Switchboard.Spec.Summary
import Switchboard.Spec.Tasks
import Switchboard.Spec.Text
import Switchboard.Spec.Transport
import Switchboard.Spec.ValidationRequests
import Switchboard.Spec.Worker
import Switchboard.Spec.WorkloadProfiles
