import EndpointCatalog.Main
import EndpointCatalog.Pattern.Reader
import EndpointCatalog.Proofs.Pattern.Search
import EndpointCatalog.Proofs.Sorting
import EndpointCatalog.Proofs.Controller.Written
import EndpointCatalog.Proofs.Controller.Parameters
import EndpointCatalog.Proofs.Controller.MethodHeader
import EndpointCatalog.Proofs.Controller.Methods
import EndpointCatalog.Proofs.Controller.ClassHeader
import EndpointCatalog.Proofs.Controller.Expected
import EndpointCatalog.Proofs.Survey.Extraction
import EndpointCatalog.Proofs.Yaml.Input
import EndpointCatalog.Proofs.Yaml.Plain
import EndpointCatalog.Proofs.Yaml.Quoted
import EndpointCatalog.Proofs.Yaml.Block
import EndpointCatalog.Proofs.Yaml.Scanner
import EndpointCatalog.Proofs.Yaml.Scalar
import EndpointCatalog.Proofs.Yaml.Table
import EndpointCatalog.Proofs.Command.Document
import EndpointCatalog.Proofs.Controller.Inherited
import EndpointCatalog.Proofs.Overwriting
import EndpointCatalog.Proofs.Controller.Entries
import EndpointCatalog.Proofs.Survey.Distinct
import EndpointCatalog.Proofs.Catalog.Sources
import EndpointCatalog.Proofs.Catalog.Links
import EndpointCatalog.Proofs.Catalog.Normal
import EndpointCatalog.Proofs.Catalog.Modules
import EndpointCatalog.Proofs.Text.Casing
import EndpointCatalog.Proofs.Text.FinalSigma
import EndpointCatalog.Proofs.Settings.Exclusion
import EndpointCatalog.Proofs.Controller.Ids
import EndpointCatalog.Proofs.Command.Name
import EndpointCatalog.Proofs.Survey.Shared
import EndpointCatalog.Proofs.Survey.Shadowing
import EndpointCatalog.Proofs.Survey.Legible
import EndpointCatalog.Proofs.Pattern.Captures
import EndpointCatalog.Proofs.Text.Bytes
import EndpointCatalog.Proofs.Catalog.Uniform
import EndpointCatalog.Proofs.Path.Order
import EndpointCatalog.Proofs.Path.Join
import EndpointCatalog.Proofs.FileTree.Content
import EndpointCatalog.Proofs.FileTree.Files
import EndpointCatalog.Proofs.FileTree.Below
import EndpointCatalog.Proofs.Survey.Order
import EndpointCatalog.Proofs.Survey.Walk
import EndpointCatalog.Proofs.Survey.Precedence
import EndpointCatalog.Proofs.FileTree.Write
import EndpointCatalog.Proofs.Path.Extension
import EndpointCatalog.Proofs.Path.Parent
import EndpointCatalog.Proofs.Path.Normal
import EndpointCatalog.Proofs.Catalog.Storage
import EndpointCatalog.Proofs.CommandLine.Collect
import EndpointCatalog.Proofs.Command.Address
import EndpointCatalog.Proofs.Command.Listing
import EndpointCatalog.Proofs.CommandLine.Call
import EndpointCatalog.Proofs.CommandLine.Outcome
import EndpointCatalog.Proofs.CommandLine.Routines
import EndpointCatalog.Proofs.CommandLine.Reprint
import EndpointCatalog.Proofs.Credentials
import EndpointCatalog.Proofs.Pattern.Ways
import EndpointCatalog.Proofs.Text.Returns
import EndpointCatalog.Proofs.Pattern.Returns
import EndpointCatalog.Proofs.Text.Strays
import EndpointCatalog.Proofs.Text.Canonical
import EndpointCatalog.Proofs.Text.Spaced
import EndpointCatalog.Proofs.Controller.Verbs
import EndpointCatalog.Proofs.Controller.Layout
import EndpointCatalog.Proofs.Controller.Literals
import EndpointCatalog.Proofs.Controller.ModelFile
import EndpointCatalog.Proofs.Controller.Camel
import EndpointCatalog.Proofs.Controller.Trailing
import EndpointCatalog.Proofs.Controller.Returns
import EndpointCatalog.Proofs.Controller.Strewn
import EndpointCatalog.Proofs.Survey.Models
import EndpointCatalog.Proofs.Survey.LineEndings
import EndpointCatalog.Proofs.Survey.Strays
import EndpointCatalog.Proofs.Text.Slices
import EndpointCatalog.Proofs.Pattern.Offsets
import EndpointCatalog.Proofs.Controller.Offsets
import EndpointCatalog.Proofs.Controller.Pieces
import EndpointCatalog.Proofs.Json.Number
import EndpointCatalog.Proofs.Json.Quoted
import EndpointCatalog.Proofs.Json.Value
import EndpointCatalog.Proofs.Json.Collection
import EndpointCatalog.Proofs.Json.Pretty
import EndpointCatalog.Proofs.CommandLine.Answers
