import MeshLayout.Main
import MeshLayout.Device.Recorder
import MeshLayout.Proofs.Directories
import MeshLayout.Proofs.Readback
import MeshLayout.Proofs.Rendering
import MeshLayout.Proofs.Acceptance
import MeshLayout.Proofs.Refusals
import MeshLayout.Proofs.Strictness
import MeshLayout.Proofs.Upload
import MeshLayout.Proofs.Grammar
import MeshLayout.Proofs.Guarantees
import MeshLayout.Proofs.Sides
import MeshLayout.Proofs.Reordering
import MeshLayout.Proofs.Extension
import MeshLayout.Proofs.Lockstep
import MeshLayout.Proofs.Respelling
import MeshLayout.Proofs.Scanning
import MeshLayout.Proofs.Documents
import MeshLayout.Proofs.Inspections
import MeshLayout.Proofs.Polling
import MeshLayout.Proofs.Verdicts
import MeshLayout.Proofs.Words
import MeshLayout.Proofs.Nesting
import MeshLayout.Proofs.Comments
import MeshLayout.Proofs.Separation
import MeshLayout.Proofs.Replays
import MeshLayout.Proofs.Joining
import MeshLayout.Proofs.Integers
import MeshLayout.Proofs.Rounding
import MeshLayout.Proofs.Shortest
import MeshLayout.Proofs.Numerals
import MeshLayout.Proofs.Extremes
import MeshLayout.Proofs.Ranges
