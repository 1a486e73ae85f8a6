import Stencil.Files.Tree
import Stencil.Main
import Stencil.Toml.Plain
import Stencil.Proofs.Document.Members
import Stencil.Proofs.Repetitions
import Stencil.Proofs.Placeholder.Decomposition
import Stencil.Proofs.Placeholder.Resolution
import Stencil.Proofs.Document.RoundTrip
import Stencil.Proofs.Placeholder.Locality
import Stencil.Proofs.Template.Basic
import Stencil.Proofs.Template.Filling
import Stencil.Proofs.Journaled
import Stencil.Proofs.Resource.Steps
import Stencil.Proofs.Resource.Naming
import Stencil.Proofs.Resource.Overwriting
import Stencil.Proofs.Exclusions
import Stencil.Proofs.Action.Normalization
import Stencil.Proofs.Placeholder.Joining
import Stencil.Proofs.Placeholder.Stability
import Stencil.Proofs.Resource.OwnNames
import Stencil.Proofs.Resource.Reporting
import Stencil.Proofs.Resource.TemplatedTexts
import Stencil.Proofs.MissingKeywords
import Stencil.Proofs.Resource.Soundness
import Stencil.Proofs.Resource.Offences
import Stencil.Proofs.Resource.Policies
import Stencil.Proofs.Resource.Comparison
import Stencil.Proofs.Action.Comparison
import Stencil.Proofs.Document.Quotation
import Stencil.Proofs.UnnoticedKeywords
import Stencil.Proofs.Resource.Warnings
import Stencil.Proofs.Printing
import Stencil.Proofs.Template.Copies
import Stencil.Proofs.Resource.Independence
import Stencil.Proofs.Resource.Rearrangement
import Stencil.Proofs.Document.Merging
import Stencil.Proofs.Document.Reading
import Stencil.Proofs.Settings.RoundTrip
import Stencil.Proofs.Toml.Distinct
import Stencil.Proofs.Sorting
import Stencil.Proofs.Settings.Order
import Stencil.Proofs.Settings.Mismatch
import Stencil.Proofs.Setup.Sources
import Stencil.Proofs.Setup.Precedence
import Stencil.Proofs.Action.Reduction
import Stencil.Proofs.FaultChain.Texts
import Stencil.Proofs.Arguments.Switches
import Stencil.Proofs.Arguments.Exclusion
import Stencil.Proofs.Document.Position
import Stencil.Proofs.Lines
import Stencil.Proofs.Template.Reach
import Stencil.Proofs.Exclusions.Paths
import Stencil.Proofs.Exclusions.Composition
import Stencil.Proofs.FaultChain.Diagnosis
import Stencil.Proofs.Text.EditDistance
import Stencil.Proofs.Placeholder.Suggestion
import Stencil.Proofs.OfferedKeywords
import Stencil.Proofs.ReservedKeys
import Stencil.Proofs.Document.Content
import Stencil.Proofs.Document.Depth
import Stencil.Proofs.Toml.Meaning
import Stencil.Proofs.Toml.Lexemes
import Stencil.Proofs.Toml.Writing
import Stencil.Proofs.Setup.Definitions
