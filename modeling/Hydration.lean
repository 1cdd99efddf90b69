import Hydration.Compiler
import Hydration.Program.Listing
import Hydration.Program.Serial
import Hydration.Template.Decode
import Hydration.Proofs.Counting
import Hydration.Proofs.Reckoning
import Hydration.Proofs.Document
import Hydration.Proofs.Violations
import Hydration.Proofs.Deferral
import Hydration.Proofs.Anchor
import Hydration.Proofs.Stream
import Hydration.Proofs.Run
import Hydration.Proofs.Nesting
import Hydration.Proofs.Placement
import Hydration.Proofs.Size
import Hydration.Proofs.Positions
import Hydration.Proofs.Replay
import Hydration.Proofs.Operands
import Hydration.Proofs.Bindings
import Hydration.Proofs.Reading
import Hydration.Proofs.Precedence
import Hydration.Proofs.References
import Hydration.Proofs.Rendering
import Hydration.Proofs.Splicing
import Hydration.Proofs.Session
import Hydration.Proofs.Restriction
import Hydration.Proofs.Repairs
import Hydration.Proofs.Threshold
import Hydration.Proofs.Spans
import Hydration.Proofs.Skeleton
import Hydration.Proofs.Replacement
import Hydration.Proofs.Excerpt
import Hydration.Proofs.Decoding
import Hydration.Proofs.Paths
import Hydration.Proofs.Kinds
import Hydration.Proofs.Serialized
import Hydration.Proofs.Numerals
import Hydration.Proofs.Tokens
import Hydration.Proofs.Legible
import Hydration.Proofs.Exactness
import Hydration.Proofs.Mirror
