import VisualEffects.Main
import VisualEffects.CommandLine.FileTree
import VisualEffects.Pipeline.Brush
import VisualEffects.Proofs.Amounts
import VisualEffects.Proofs.Animate
import VisualEffects.Proofs.Colors
import VisualEffects.Proofs.Composition
import VisualEffects.Proofs.Creation
import VisualEffects.Proofs.Digits
import VisualEffects.Proofs.Documents
import VisualEffects.Proofs.Entries
import VisualEffects.Proofs.Execution
import VisualEffects.Proofs.Heights
import VisualEffects.Proofs.Limits
import VisualEffects.Proofs.Lint
import VisualEffects.Proofs.Numerals
import VisualEffects.Proofs.ReadBack
import VisualEffects.Proofs.Records
import VisualEffects.Proofs.Recording
import VisualEffects.Proofs.Recovery
import VisualEffects.Proofs.Requests
import VisualEffects.Proofs.Rereading
import VisualEffects.Proofs.Scripts
import VisualEffects.Proofs.Sharing
import VisualEffects.Proofs.Simulation
import VisualEffects.Proofs.RoundTrip
import VisualEffects.Proofs.Depths
import VisualEffects.Proofs.Numbering
import VisualEffects.Proofs.Reuse
import VisualEffects.Proofs.Timelines
import VisualEffects.Proofs.Waiting
import VisualEffects.Proofs.Census
import VisualEffects.Proofs.Configuration
import VisualEffects.Proofs.Cycles
import VisualEffects.Proofs.Lexemes
import VisualEffects.Proofs.Spellings
import VisualEffects.Proofs.Building
import VisualEffects.Proofs.Reading
import VisualEffects.Proofs.Embedding
import VisualEffects.Proofs.Branches
import VisualEffects.Proofs.Edits
import VisualEffects.Proofs.Nesting
import VisualEffects.Proofs.Channels
import VisualEffects.Proofs.Unambiguous
import VisualEffects.Proofs.WrittenGraphs
import VisualEffects.Proofs.Retained
import VisualEffects.Proofs.Notations
import VisualEffects.Proofs.Offsets
import VisualEffects.Proofs.Respellings
import VisualEffects.Proofs.Exact
import VisualEffects.Proofs.Curves
import VisualEffects.Proofs.Roots
import VisualEffects.Proofs.Samples
import VisualEffects.Proofs.Families
