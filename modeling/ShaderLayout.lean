import ShaderLayout.Listing
import ShaderLayout.Main
import ShaderLayout.Workspace
import ShaderLayout.Proofs.Layout.Filling
import ShaderLayout.Proofs.Layout.Bounds
import ShaderLayout.Proofs.Layout.Renewing
import ShaderLayout.Proofs.Padded.Meaning
import ShaderLayout.Proofs.Padded.Uncached
import ShaderLayout.Proofs.Padded.Footprint
import ShaderLayout.Proofs.Description.Run
import ShaderLayout.Proofs.Description.Attributes
import ShaderLayout.Proofs.Description.WellFormed
import ShaderLayout.Proofs.Description.Building
import ShaderLayout.Proofs.Description.Tables
import ShaderLayout.Proofs.Description.Evaluation
import ShaderLayout.Proofs.Description.Simulation
import ShaderLayout.Proofs.Description.Following
import ShaderLayout.Proofs.Description.Refinement
import ShaderLayout.Proofs.Padded.Stopping
import ShaderLayout.Proofs.Padded.Descent
import ShaderLayout.Proofs.Number.Numeral
import ShaderLayout.Proofs.Arena
import ShaderLayout.Proofs.Description.Naming
import ShaderLayout.Proofs.Description.Changing
import ShaderLayout.Proofs.Padded.Describing
import ShaderLayout.Proofs.Listing
import ShaderLayout.Proofs.Compilation
import ShaderLayout.Proofs.Description.Grammar
import ShaderLayout.Proofs.Description.Machine
import ShaderLayout.Proofs.Description.Deriving
import ShaderLayout.Proofs.Description.Accepting
import ShaderLayout.Proofs.Description.Lexical
import ShaderLayout.Proofs.Description.Parsing
import ShaderLayout.Proofs.Description.Ranges
import ShaderLayout.Proofs.Writing
import ShaderLayout.Proofs.Command
import ShaderLayout.Proofs.Description.Places
import ShaderLayout.Proofs.Description.Spans
import ShaderLayout.Proofs.Description.Positions
import ShaderLayout.Proofs.Description.Writing
import ShaderLayout.Proofs.Description.Erasing
import ShaderLayout.Proofs.Description.Mirroring
import ShaderLayout.Proofs.Description.Repeating
import ShaderLayout.Proofs.Description.Sharing
import ShaderLayout.Proofs.Formatting
import ShaderLayout.Proofs.Text.Line
import ShaderLayout.Proofs.Snippets
import ShaderLayout.Proofs.Constant
import ShaderLayout.Proofs.Arena.Indexed
import ShaderLayout.Proofs.Layout.Placing
import ShaderLayout.Proofs.Padded.Caching
import ShaderLayout.Proofs.Coloring
import ShaderLayout.Proofs.Number.Bits
import ShaderLayout.Proofs.Number.Reading
import ShaderLayout.Proofs.Description.Literals
import ShaderLayout.Proofs.Description.Judging
