import L0vi0x.Python.Exception
import L0vi0x.Python.Text
import L0vi0x.Python.Float
import L0vi0x.Python.Json
import L0vi0x.Python.JsonText
import L0vi0x.Python.JsonRoundTrip
import L0vi0x.Python.FileSystem
import L0vi0x.Python.Host
import L0vi0x.Core.Models
import L0vi0x.Core.Certificates
import L0vi0x.Chain.CheatcodeAbi
import L0vi0x.Chain.Trace
import L0vi0x.Chain.TracePolicy
import L0vi0x.Chain.Witness
import L0vi0x.Chain.Environment
import L0vi0x.Chain.Econ
import L0vi0x.Chain.Economics
import L0vi0x.Chain.ExactValuation
import L0vi0x.Chain.Sensitivity
import L0vi0x.Chain.AssetSpelling
import L0vi0x.Chain.SourceCopy
import L0vi0x.Verifier.Types
import L0vi0x.Verifier.Checks
import L0vi0x.Verifier.Derived
import L0vi0x.Verifier.Pipeline
import L0vi0x.Chain.TraceParse
import L0vi0x.Chain.TraceCoverage
import L0vi0x.Verifier.Acceptance
import L0vi0x.Verifier.RunLoading
import L0vi0x.Verifier.EvidenceOrigin
import L0vi0x.Verifier.Establishment
import L0vi0x.Verifier.Budgets
import L0vi0x.Verifier.AttackerCapital
import L0vi0x.Verifier.RunIndependence
import L0vi0x.Python.MemoryFiles
import L0vi0x.Python.LexicalPath
import L0vi0x.Python.FileTree
import L0vi0x.Python.Act
import L0vi0x.Python.Mapping
import L0vi0x.Python.Disk
import L0vi0x.Verifier.RetainedRun
import L0vi0x.Verifier.ReplayAgreement
import L0vi0x.Core.Hypothesis
import L0vi0x.Core.Interfaces
import L0vi0x.Core.Ladder
import L0vi0x.Core.LadderClosure
import L0vi0x.Core.Lifecycle
import L0vi0x.Python.Regex
import L0vi0x.Core.QuietText
import L0vi0x.Core.Redaction
import L0vi0x.Sql.Value
import L0vi0x.Sql.Table
import L0vi0x.Core.StoreSchema
import L0vi0x.Core.HypothesisTriggers
import L0vi0x.Core.GuardedTables
import L0vi0x.Core.EventLog
import L0vi0x.Core.FreshIds
import L0vi0x.Sql.StrictEngine
import L0vi0x.Core.Store
import L0vi0x.Core.StoreSpec
import L0vi0x.Core.StoreRuns
import L0vi0x.Core.StoreCommits
import L0vi0x.Core.StoreHistory
import L0vi0x.Core.StoreLadder
import L0vi0x.Core.TransitionEvidence
import L0vi0x.Core.StoreReopen
import L0vi0x.Core.StoreUpdates
import L0vi0x.Core.StoreRebuild
import L0vi0x.Agents.SandboxFs
import L0vi0x.Python.Threads
import L0vi0x.Core.Tasks
import L0vi0x.Core.TaskRuns
import L0vi0x.Models.Adapters
import L0vi0x.Models.Router
import L0vi0x.Models.Lockfile
import L0vi0x.Models.TermsPricing
import L0vi0x.Python.Url
import L0vi0x.Python.Toml
import L0vi0x.Chain.FoundryConfig
import L0vi0x.Chain.SanitizedConfig
import L0vi0x.Chain.ConfigReadBack
import L0vi0x.Python.JsonSpaced
import L0vi0x.Python.JsonTexts
import L0vi0x.Docker.RpcGate
import L0vi0x.Docker.GateAudit
import L0vi0x.Docker.GateSafety
import L0vi0x.Chain.RpcGate
import L0vi0x.Docker.GateAgreement
import L0vi0x.Core.CertificateBinding
import L0vi0x.Chain.Valuation
import L0vi0x.Verifier.PricedEconomics
import L0vi0x.Chain.FoundryTrace
import L0vi0x.Chain.ArenaWalk
import L0vi0x.Chain.ArenaExecution
import L0vi0x.Chain.ForgeEnvelope
import L0vi0x.Chain.TracePipeline
import L0vi0x.Chain.AdapterErrors
import L0vi0x.Chain.TraceFidelity
import L0vi0x.Python.Utf8
import L0vi0x.Chain.BigEndian
import L0vi0x.Chain.ContractAddress
import L0vi0x.Chain.AbiEncoding
import L0vi0x.Chain.TraceRecords
import L0vi0x.Chain.CheatcodeEnforcement
import L0vi0x.Chain.TraceClocks
import L0vi0x.Chain.PlainFrames
import L0vi0x.Chain.AssertionEmitters
import L0vi0x.Chain.Replay
import L0vi0x.Core.Certifier
import L0vi0x.Verifier.CollectedEvidence
import L0vi0x.Verifier.AssertionMatching
import L0vi0x.Verifier.HarnessDerivation
import L0vi0x.Verifier.FlowReconciliation
import L0vi0x.Verifier.HarnessIdentity
import L0vi0x.Verifier.SourceTie
import L0vi0x.Verifier.ScopedFiles
import L0vi0x.Verifier.KnownIssues
import L0vi0x.Driver.WorkPaths
import L0vi0x.Agents.WriteFrame
import L0vi0x.Chain.Template
import L0vi0x.Tools.ContainerLock
import L0vi0x.Core.Policy
import L0vi0x.Chain.PolicyAgreement
import L0vi0x.Chain.SourceManifest
import L0vi0x.Chain.CallDepth
import L0vi0x.Verifier.RevertedLogs
import L0vi0x.Chain.HexTexts
import L0vi0x.Chain.EventLabels
import L0vi0x.Tools.Runner
import L0vi0x.Verifier.FailClosed
import L0vi0x.Verifier.TreeEdits
import L0vi0x.Python.Linearization
import L0vi0x.Core.SettledTasks
import L0vi0x.Core.TaskOutcomes
import L0vi0x.Driver.Certification
import L0vi0x.Core.Operations
import L0vi0x.Core.EntityRuns
