import SchemaTypings.Main
import SchemaTypings.Files.Tree
import SchemaTypings.Proofs.Loading.Printed
import SchemaTypings.Proofs.Loading.Labels
import SchemaTypings.Proofs.Generation.Joining
import SchemaTypings.Proofs.Generation.LineEnds
import SchemaTypings.Proofs.Generation.Resolution
import SchemaTypings.Proofs.Command.Agreement
import SchemaTypings.Proofs.Generation.StandardScalars
import SchemaTypings.Proofs.Generation.Values
import SchemaTypings.Proofs.Command.Precedence
import SchemaTypings.Proofs.TypeNotation
import SchemaTypings.Proofs.Generation.Records
import SchemaTypings.Proofs.Generation.Enumerations
import SchemaTypings.Proofs.Generation.Arrays
import SchemaTypings.Proofs.Generation.Chains
import SchemaTypings.Proofs.Layout.Nesting
import SchemaTypings.Proofs.Text.Counting
import SchemaTypings.Proofs.NamedLists
import SchemaTypings.Proofs.Layout.Indentation
