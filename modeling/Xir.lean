import Xir.Framework.Chain
import Xir.Framework.Frames
import Xir.Impl.Contracts.Adapter
import Xir.Proof.History
import Xir.Proof.Forward
import Xir.Proof.Delivery
import Xir.Proof.Agreement
import Xir.Proof.Deploy
import Xir.Proof.Splice
import Xir.Proof.Receipts
import Xir.Proof.Walk
import Xir.Proof.Provenance
import Xir.Proof.Across
import Xir.Proof.Identifiers
import Xir.Proof.Pause
import Xir.Proof.Duplicates
import Xir.Proof.Multihop
import Xir.Framework.Prog
import Xir.Proof.Callers
import Xir.Proof.Floor
import Xir.Proof.Handover
import Xir.Proof.Stops
import Xir.Proof.WriteAhead
import Xir.Proof.Gates
import Xir.Proof.Resolution
import Xir.Proof.Replacements
import Xir.Proof.AwaitFinality
import Xir.Proof.Dispatch
import Xir.Proof.Approvals
import Xir.Proof.Finality
import Xir.Proof.Freeze
import Xir.Proof.StopPolicies
import Xir.Proof.Packets
import Xir.Proof.CanonicalJson
import Xir.Proof.Transitions
import Xir.Proof.Collect
import Xir.Proof.WorkerActions
import Xir.Proof.MultihopStages
import Xir.Proof.Transactor
import Xir.Proof.Ablation
import Xir.Proof.Outcomes
import Xir.Proof.Reconcile
import Xir.Proof.Overhead
import Xir.Proof.ExecutablePlans
import Xir.Proof.Certificates
import Xir.Proof.Executions
import Xir.Proof.Metadata
import Xir.Proof.Expansion
import Xir.Proof.Insertions
import Xir.Proof.Migrations
import Xir.Proof.Repeats
import Xir.Proof.GatewayEvidence
import Xir.Proof.ExpansionCurves
import Xir.Proof.DeploymentGas
import Xir.Proof.MultihopEffects
import Xir.Proof.EvmCollector
