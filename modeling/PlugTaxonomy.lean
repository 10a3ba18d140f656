import PlugTaxonomy.Main
import PlugTaxonomy.Code.Json
import PlugTaxonomy.Schema.Writer
import PlugTaxonomy.Proofs.Allocation.Order
import PlugTaxonomy.Proofs.Table.Slots
import PlugTaxonomy.Proofs.Label
import PlugTaxonomy.Proofs.Usage
import PlugTaxonomy.Proofs.Compatibility
import PlugTaxonomy.Proofs.Cpp.Source
import PlugTaxonomy.Proofs.Text.Numeral
import PlugTaxonomy.Proofs.Cpp.Header
import PlugTaxonomy.Proofs.Files.Path
import PlugTaxonomy.Proofs.Files.Walk
import PlugTaxonomy.Proofs.Files.Entries
import PlugTaxonomy.Proofs.Files.Faults
import PlugTaxonomy.Proofs.Files.Siblings
import PlugTaxonomy.Proofs.Files.AllOrNothing
import PlugTaxonomy.Proofs.Table.Paths
import PlugTaxonomy.Proofs.Wiring.Endpoint
import PlugTaxonomy.Proofs.Wiring.Preorder
import PlugTaxonomy.Proofs.Wiring.Rules
import PlugTaxonomy.Proofs.Wiring.Descent
import PlugTaxonomy.Proofs.Wiring.Interchange
import PlugTaxonomy.Proofs.Extension
import PlugTaxonomy.Proofs.UsageRange
import PlugTaxonomy.Proofs.Pruning
import PlugTaxonomy.Proofs.Cpp.CaseLabels
import PlugTaxonomy.Proofs.Variants
import PlugTaxonomy.Proofs.TypeField
import PlugTaxonomy.Proofs.Declared
import PlugTaxonomy.Proofs.Growth
import PlugTaxonomy.Proofs.Schema.Flags
import PlugTaxonomy.Proofs.Json.RoundTrip
import PlugTaxonomy.Proofs.Schema.RoundTrip
import PlugTaxonomy.Proofs.Files.Completing
import PlugTaxonomy.Proofs.Files.Succeeding
import PlugTaxonomy.Proofs.Files.Clearing
import PlugTaxonomy.Proofs.CommandLine.Generate
import PlugTaxonomy.Proofs.Cpp.Literal
import PlugTaxonomy.Proofs.Code.Numeral
import PlugTaxonomy.Proofs.Json.Tokens
import PlugTaxonomy.Proofs.Artifacts
import PlugTaxonomy.Proofs.Schema.Edits
import PlugTaxonomy.Proofs.CommandLine.Argument
import PlugTaxonomy.Proofs.Table.LookUp
import PlugTaxonomy.Proofs.Table.Shape
import PlugTaxonomy.Proofs.Allocation.Words
