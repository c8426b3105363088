import SecretFill.Action
import SecretFill.Forest.Visit
import SecretFill.Interpolation
import SecretFill.Json.Reading
import SecretFill.Log.Threshold
import SecretFill.Main
import SecretFill.Masker.Payload
import SecretFill.ResourceName
import SecretFill.Run.Basic
import SecretFill.Secret.Provider
import SecretFill.Server
import SecretFill.Settings.Source
import SecretFill.Tool
import SecretFill.Workflow.Input
import SecretFill.Workflow.Output
import SecretFill.Proofs.Data.Tree
import SecretFill.Proofs.Forest.Growth
import SecretFill.Proofs.Forest.Coverage
import SecretFill.Proofs.Interpolation.Passes
import SecretFill.Proofs.Interpolation.Choice
import SecretFill.Proofs.Data.Closed
import SecretFill.Proofs.Interpolation.Substitution
import SecretFill.Proofs.Interpolation.Secrecy
import SecretFill.Proofs.Files
import SecretFill.Proofs.Reference
import SecretFill.Proofs.Reference.Joining
import SecretFill.Proofs.ResourceName
import SecretFill.Proofs.Run.Course
import SecretFill.Proofs.Run.Secrecy
import SecretFill.Proofs.Yaml.Cursor
import SecretFill.Proofs.Yaml.Page
import SecretFill.Proofs.Yaml.Plain
import SecretFill.Proofs.Yaml.Quoted
import SecretFill.Proofs.Decimal.Digits
import SecretFill.Proofs.Yaml.Escaped
import SecretFill.Proofs.Yaml.Scan
import SecretFill.Proofs.Yaml.Lexeme
import SecretFill.Proofs.Yaml.Scalar
import SecretFill.Proofs.Yaml.Block
import SecretFill.Proofs.Yaml.Anchor
import SecretFill.Proofs.Yaml.Outline
import SecretFill.Proofs.Yaml.Document
import SecretFill.Proofs.Yaml.Event
import SecretFill.Proofs.Decimal.Numeral
import SecretFill.Proofs.Yaml.Atom
import SecretFill.Proofs.Data.Keys
import SecretFill.Proofs.Data.Plain
import SecretFill.Proofs.Yaml.Drawing
import SecretFill.Proofs.Yaml.Encodable
import SecretFill.Proofs.Yaml.Assembly
import SecretFill.Proofs.Yaml.Graph
import SecretFill.Proofs.Yaml.Construction
import SecretFill.Proofs.Yaml.RoundTrip
import SecretFill.Proofs.Data.Route
import SecretFill.Proofs.Forest.Parts
import SecretFill.Proofs.Forest.Cycle
import SecretFill.Proofs.Forest.Planting
import SecretFill.Proofs.Data.Unfolding
import SecretFill.Proofs.Data.Unshared
import SecretFill.Proofs.Forest.Linked
import SecretFill.Proofs.Walker.Visit
import SecretFill.Proofs.Walker.Session
import SecretFill.Proofs.Walker.Roaming
import SecretFill.Proofs.Forest.Mirror
import SecretFill.Proofs.Forest.Tally
import SecretFill.Proofs.Forest.Arrival
import SecretFill.Proofs.Forest.Trail
import SecretFill.Proofs.Interpolation.Sharing
import SecretFill.Proofs.Interpolation.Records
import SecretFill.Proofs.Interpolation.Ledger
import SecretFill.Proofs.Interpolation.Tour
import SecretFill.Proofs.Interpolation.Order
import SecretFill.Proofs.Data.Address
import SecretFill.Proofs.Interpolation.Addresses
import SecretFill.Proofs.Placeholder.Token
import SecretFill.Proofs.Yaml.Tidy
import SecretFill.Proofs.Interpolation.RoundTrip
import SecretFill.Proofs.Masker.Redaction
import SecretFill.Proofs.Masker.Payload
import SecretFill.Proofs.Masker.History
import SecretFill.Proofs.Run.Discipline
import SecretFill.Proofs.Run.Unused
import SecretFill.Proofs.Text.Pieces
import SecretFill.Proofs.Text.Division
import SecretFill.Proofs.Text.Trimming
import SecretFill.Proofs.Text.Utf8
import SecretFill.Proofs.Text.Base64
import SecretFill.Proofs.Json.Reading
import SecretFill.Proofs.Secret.Manager
import SecretFill.Proofs.Workflow.Escape
import SecretFill.Proofs.Workflow.Command
import SecretFill.Proofs.Workflow.Output
import SecretFill.Proofs.Failure
import SecretFill.Proofs.Tool.Interleaving
import SecretFill.Proofs.Tool.Answer
