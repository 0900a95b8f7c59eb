import PodFabric.Proof.Trust
import PodFabric.Engine.Dependency
import PodFabric.Proof.Recovery
import PodFabric.Proof.Regression
import PodFabric.Proof.Commits
import PodFabric.Proof.Tokens
import PodFabric.Proof.MissingEvidence
import PodFabric.Proof.Transitions
import PodFabric.Proof.SnapshotCodec
import PodFabric.Proof.Acknowledged
import PodFabric.Proof.Connectivity
import PodFabric.Proof.Identity
import PodFabric.Proof.Obligations
import PodFabric.Proof.Accumulation
import PodFabric.Proof.Decisions
import PodFabric.Proof.Convergence
import PodFabric.Proof.Rollback
import PodFabric.Proof.Renewal
import PodFabric.Proof.Delivery
import PodFabric.Proof.Responses
import PodFabric.Proof.Replay
import PodFabric.Proof.Transport
import PodFabric.Proof.Opening
import PodFabric.Proof.Fate
import PodFabric.Proof.Figures
import PodFabric.Proof.Overrides
import PodFabric.Proof.Injection
import PodFabric.Proof.MemberFences
import PodFabric.Proof.Diversity
import PodFabric.Proof.PathFences
import PodFabric.Proof.Times
import PodFabric.Proof.Ties
import PodFabric.Proof.Fingerprints
import PodFabric.Proof.StateDigest
import PodFabric.Proof.Hashing
import PodFabric.Proof.Sending
import PodFabric.Proof.Coverage
import PodFabric.Proof.Plans
import PodFabric.Proof.Ordering
import PodFabric.Proof.Shutdown
import PodFabric.Proof.TextRoundTrip
import PodFabric.Proof.CheckedArithmetic
import PodFabric.Proof.CrashRecovery
import PodFabric.Proof.OrderIndependence
import PodFabric.Proof.Draining
import PodFabric.Proof.RemoteCalls
import PodFabric.Proof.Endpoints
import PodFabric.Proof.Repetition
import PodFabric.Proof.Intent
