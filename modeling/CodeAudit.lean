import CodeAudit.Dataset.Pipeline
import CodeAudit.Main
import CodeAudit.Model.Embedding
import CodeAudit.Performance.Run
import CodeAudit.Proofs.Audit.RuleIds
import CodeAudit.Proofs.Baseline.Stability
import CodeAudit.Proofs.Benchmark.Accounting
import CodeAudit.Proofs.Benchmark.Generated
import CodeAudit.Proofs.Config.Loading
import CodeAudit.Proofs.Cve.Download
import CodeAudit.Proofs.Dashboard.Requests
import CodeAudit.Proofs.Dashboard.Counted
import CodeAudit.Proofs.Dashboard.Pages
import CodeAudit.Proofs.Dependencies.Batch
import CodeAudit.Proofs.Dependencies.Failures
import CodeAudit.Proofs.Dependencies.WorstSeverity
import CodeAudit.Proofs.Model.TrainedFeatures
import CodeAudit.Proofs.Python.StatementForms
import CodeAudit.Proofs.Python.Traversal
import CodeAudit.Proofs.Report.Accounts
import CodeAudit.Proofs.Report.CodeScanning
import CodeAudit.Proofs.Rules.Precedence
import CodeAudit.Proofs.Scan.MatchLines
import CodeAudit.Proofs.Scan.MessageWindow
import CodeAudit.Proofs.Scan.MovedLines
import CodeAudit.Proofs.Scan.QueryCalls
import CodeAudit.Proofs.Scan.Blocks
import CodeAudit.Proofs.Scan.ContainerUser
import CodeAudit.Proofs.Suppression.Components
import CodeAudit.Proofs.Suppression.Partition
import CodeAudit.Scan.Typescript
import CodeAudit.Proofs.Report.Markup
import CodeAudit.Proofs.Python.Nesting
