import LiveCluster.Application
import LiveCluster.Config.Environment
import LiveCluster.Simulation.Session
import LiveCluster.Transport.Exchange
import LiveCluster.Proofs.Watch.Staleness
import LiveCluster.Proofs.Watch.Survival
import LiveCluster.Proofs.Watch.Resume
import LiveCluster.Proofs.Watch.Intact
import LiveCluster.Proofs.Watch.Deletion
import LiveCluster.Proofs.Access.Authorization
import LiveCluster.Proofs.Simulation.Sessions
import LiveCluster.Proofs.Tail.Sessions
import LiveCluster.Proofs.Loop.Alert
import LiveCluster.Proofs.Watch.Namespaces
import LiveCluster.Proofs.Tail.Closing
import LiveCluster.Proofs.Tail.OwnPods
import LiveCluster.Proofs.Watch.Subscriptions
import LiveCluster.Proofs.Watch.Shutting
import LiveCluster.Proofs.Tail.Sealed
import LiveCluster.Proofs.Tail.Lossless
import LiveCluster.Proofs.Schema.Places
import LiveCluster.Proofs.Transport.Boundary
import LiveCluster.Proofs.Application.Lifecycle
import LiveCluster.Proofs.Watch.Entries
import LiveCluster.Proofs.Text.Selectors
import LiveCluster.Proofs.Text.Identifiers
import LiveCluster.Proofs.Transport.Dispatch
import LiveCluster.Proofs.Watch.Agreement
import LiveCluster.Proofs.Access.Reviewed
import LiveCluster.Proofs.Config.Bounds
import LiveCluster.Proofs.Transport.Lines
import LiveCluster.Proofs.Restart.Patch
import LiveCluster.Proofs.Access.Permission
import LiveCluster.Proofs.Access.Handing
import LiveCluster.Proofs.Text.Paths
