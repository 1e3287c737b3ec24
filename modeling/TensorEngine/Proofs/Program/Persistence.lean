import TensorEngine.Proofs.Artifact.Writing
import TensorEngine.Proofs.Program.Recording
import TensorEngine.Proofs.Program.Refinement

/-!
# Instances of programs as artifacts

For as long as a program lives, its ready instances with reference, parallel or vendor
implementations are written down as blobs, and a blob is read back as an instance that is ready
with the same implementation in the same form.  Nothing is finalized for that.  A cache has to tell
the nodes of the graph apart: an instance that runs what was finalized for another node is written
down, too, but its node does not take that back.
-/

namespace TensorEngine

open Wire CatalogueImplementation
open PrimitiveInstance (ofArtifact)

namespace Program

variable {graph : Graph} {registry : Registry CatalogueImplementation} {device : DeviceCaps}
  {config : RuntimeConfig} {program : Program CatalogueImplementation} {env : Environment}
  {inst : PrimitiveInstance CatalogueImplementation} {id : DescriptorId}
  {descriptor : Descriptor CatalogueImplementation}

end Program

end TensorEngine
