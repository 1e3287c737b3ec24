import TensorEngine.Catalogue
import TensorEngine.Config.Json
import TensorEngine.Config.Variables
import TensorEngine.Graph.Builder
import TensorEngine.Proofs.Artifact.Truncation
import TensorEngine.Proofs.Execution.Stopping
import TensorEngine.Proofs.Execution.Traces
import TensorEngine.Proofs.Execution.Within
import TensorEngine.Proofs.Instance.Chunking
import TensorEngine.Proofs.Instance.Respecializing
import TensorEngine.Proofs.Instance.Suiting
import TensorEngine.Proofs.Kernel.ColumnMajor
import TensorEngine.Proofs.Kernel.Products
import TensorEngine.Proofs.Kernel.Within
import TensorEngine.Proofs.Memory.Accounting
import TensorEngine.Proofs.Operation.Overflow
import TensorEngine.Proofs.Operation.Reshaping
import TensorEngine.Proofs.Program.Backends
import TensorEngine.Proofs.Program.Choosing
import TensorEngine.Proofs.Program.Completeness
import TensorEngine.Proofs.Program.Conversions
import TensorEngine.Proofs.Program.Extents
import TensorEngine.Proofs.Program.Histories
import TensorEngine.Proofs.Program.Makings
import TensorEngine.Proofs.Program.Persistence
import TensorEngine.Proofs.Program.Provision
import TensorEngine.Proofs.Program.Statistics
import TensorEngine.Proofs.Program.Stopping
import TensorEngine.Proofs.Program.Stores
import TensorEngine.Proofs.Program.Streams
import TensorEngine.Proofs.Program.WarmStart
import TensorEngine.Proofs.Program.Within
import TensorEngine.Proofs.Registry.Candidates
import TensorEngine.Proofs.Stream.Progress
import TensorEngine.Proofs.Wire.Canonical
import TensorEngine.Proofs.Wire.Difference
import TensorEngine.Proofs.Wire.Fingerprint
import TensorEngine.Workbench
