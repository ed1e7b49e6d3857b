import Tangle.Document.Node
import Tangle.Document.Basic
import Tangle.Document.Walk
import Tangle.Document.Search
import Tangle.Document.Role
import Tangle.Document.Outline
import Tangle.Emission
import Tangle.Markdown.Adapter
import Tangle.Generation
import Tangle.Path.Output
import Tangle.Files.Find
import Tangle.Files.Write
import Tangle.Toml.Parser
import Tangle.Settings
import Tangle.Command.Run
import Tangle.Main
import Tangle.Proofs.Document.Trail
import Tangle.Proofs.Document.Growth
import Tangle.Proofs.Document.Tree
import Tangle.Proofs.Document.Reading
import Tangle.Proofs.Emission.Scan
import Tangle.Proofs.Emission.Agreement
import Tangle.Proofs.Document.Planting
import Tangle.Proofs.Emission.Sections
import Tangle.Proofs.Emission.Declaration
import Tangle.Proofs.Emission.Nesting
import Tangle.Proofs.Document.Building
import Tangle.Proofs.Document.Touring
import Tangle.Proofs.Document.Breaking
import Tangle.Proofs.Emission.Faults
import Tangle.Proofs.Generation
import Tangle.Proofs.Document.Attachment
import Tangle.Proofs.Emission.Detached
import Tangle.Proofs.Document.Numbering
import Tangle.Proofs.Markdown.Schema
import Tangle.Proofs.Markdown.Sections
import Tangle.Proofs.Text.Span
import Tangle.Proofs.Files.Walking
import Tangle.Proofs.Markdown.Coverage
import Tangle.Proofs.Files.Directories
import Tangle.Proofs.Files.Finding
import Tangle.Proofs.Files.Output
import Tangle.Proofs.Command.Conversion
import Tangle.Proofs.Command.Isolation
import Tangle.Proofs.Command.Overwriting
import Tangle.Proofs.Document.Descent
import Tangle.Proofs.Emission.Bodies
import Tangle.Proofs.Emission.Separators
import Tangle.Proofs.Document.Balance
import Tangle.Proofs.Emission.ParameterLists
import Tangle.Proofs.Document.Searching
import Tangle.Proofs.Document.Decoration
import Tangle.Proofs.Emission.Signatures
import Tangle.Proofs.Document.Circles
import Tangle.Proofs.Text.Trimming
import Tangle.Proofs.Markdown.Titles
import Tangle.Proofs.Markdown.Strictness
import Tangle.Proofs.Markdown.Fences
import Tangle.Proofs.Footer
import Tangle.Proofs.Markdown.Indentation
import Tangle.Proofs.Files.Arrangement
import Tangle.Proofs.Path.Collision
