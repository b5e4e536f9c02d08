import HermesMesh.LeaseRuns
import HermesMesh.Send
import HermesMesh.ThreadRuns
import HermesMesh.DeliveryOutcome
import HermesMesh.ItemsKept
import HermesMesh.SendLeases
import HermesMesh.FailedSends
import HermesMesh.ThirdParties
import HermesMesh.ThreadAddress
import HermesMesh.Intake
import HermesMesh.Lib.Expiry
import HermesMesh.ReplayWindow
import HermesMesh.Lib.Units
import HermesMesh.Float
import HermesMesh.FloatParts
import HermesMesh.Pinning
import HermesMesh.IntakeSafety
import HermesMesh.DuplicateAnswers
import HermesMesh.EnvelopeRoundTrip
import HermesMesh.Attempt
import HermesMesh.QueuedItems
import HermesMesh.LateTerminators
import HermesMesh.RetryRequests
import HermesMesh.RetrySweep
import HermesMesh.SweepIsolation
import HermesMesh.DeliveryCalls
import HermesMesh.TerminatorLife
import HermesMesh.LogIntegrity
import HermesMesh.SnapshotRuns
import HermesMesh.PendingCloses
import HermesMesh.IntakeStores
import HermesMesh.BusyGate
import HermesMesh.RegistryContents
import HermesMesh.Lib.PosixPath
import HermesMesh.Vault
import HermesMesh.VaultWrites
import HermesMesh.RateLimits
import HermesMesh.DoorRuns
import HermesMesh.FleetRuns
import HermesMesh.Lib.PyLiteral
import HermesMesh.AcceptingPeers
import HermesMesh.WayOut
import HermesMesh.LeaseBounds
import HermesMesh.LeasePromises
import HermesMesh.AddressPolicy
import HermesMesh.AgentNames
import HermesMesh.DeliveryBudget
import HermesMesh.TerminatorReports
import HermesMesh.DeliveryCounts
import HermesMesh.SendAccounting
import HermesMesh.Lib.RetryPolicy
import HermesMesh.RetrySchedule
import HermesMesh.DryRun
import HermesMesh.KeyPairing
import HermesMesh.Lib.FixedWindow
import HermesMesh.RateBound
import HermesMesh.ReleaseSweep
import HermesMesh.Lib.Tasks
import HermesMesh.MessageTurns
import HermesMesh.Verdicts
import HermesMesh.ClosedThreads
import HermesMesh.EndToEnd
import HermesMesh.FailOpen
import HermesMesh.FloatSend
import HermesMesh.Listener
import HermesMesh.Goodbyes
import HermesMesh.Reconnects
