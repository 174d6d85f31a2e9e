import FlowAudit.Text.Literal
import FlowAudit.Yaml.Comment
import FlowAudit.Main
import FlowAudit.Command.Run
import FlowAudit.Web.Address
import FlowAudit.Command.Session
import FlowAudit.Command.Help
import FlowAudit.Command.Flag
import FlowAudit.Service.Basic
import FlowAudit.Config.Load
import FlowAudit.Config.Reader
import FlowAudit.Config.ToJson
import FlowAudit.Web.Url
import FlowAudit.Health.Doctor
import FlowAudit.Source.Stored
import FlowAudit.Store.Statements
import FlowAudit.Fingerprint
import FlowAudit.Source.Directory
import FlowAudit.Render.Analysis
import FlowAudit.Render.Graph
import FlowAudit.Yaml.Printer
import FlowAudit.Log
import FlowAudit.Resolution.Resolver
import FlowAudit.Source.Basic
import FlowAudit.Analysis.Single
import FlowAudit.Analysis.Split
import FlowAudit.Analysis.OfJson
import FlowAudit.Analysis.ToJson
import FlowAudit.Document.Parse
import FlowAudit.Graph.Build
import FlowAudit.Graph.ToJson
import FlowAudit.Json.Printer
import FlowAudit.Loops.Ownership
import FlowAudit.Text.Letter
import FlowAudit.Metrics
import FlowAudit.Proofs.Graph.Names
import FlowAudit.Proofs.Loops.Edges
import FlowAudit.Proofs.Loops.Moves
import FlowAudit.Proofs.Loops.Witness
import FlowAudit.Proofs.Loops.Settling
import FlowAudit.Proofs.Loops.Membership
import FlowAudit.Proofs.Loops.Termination
import FlowAudit.Proofs.Loops.Iteration
import FlowAudit.Proofs.Resolution.Ensures
import FlowAudit.Proofs.Resolution.Plain
import FlowAudit.Proofs.Resolution.Memo
import FlowAudit.Proofs.Loops.Chain
import FlowAudit.Proofs.Loops.FirstClaim
import FlowAudit.Proofs.Loops.Ownership
import FlowAudit.Proofs.Loops.Provenance
import FlowAudit.Proofs.Resolution.Answers
import FlowAudit.Proofs.Resolution.Totals
import FlowAudit.Proofs.Graph.Generated
import FlowAudit.Proofs.Graph.Reordering
import FlowAudit.Proofs.Resolution.Order
import FlowAudit.Proofs.Resolution.Steps
import FlowAudit.Proofs.Resolution.Entries
import FlowAudit.Proofs.Resolution.Effects
import FlowAudit.Proofs.Resolution.Flight
import FlowAudit.Proofs.Resolution.Once
import FlowAudit.Proofs.Resolution.Depth
import FlowAudit.Proofs.Resolution.Accounting
import FlowAudit.Proofs.Success
import FlowAudit.Proofs.Text.Numeral
import FlowAudit.Proofs.Json.Reading
import FlowAudit.Proofs.Json.Members
import FlowAudit.Proofs.Time.Calendar
import FlowAudit.Proofs.Time.Text
import FlowAudit.Proofs.Time.Order
import FlowAudit.Proofs.Table
import FlowAudit.Proofs.Analysis.Tree
import FlowAudit.Proofs.Analysis.Reading
import FlowAudit.Proofs.Store.ReadBack
import FlowAudit.Proofs.Store.Saving
import FlowAudit.Proofs.Store.History
import FlowAudit.Proofs.Resolution.Revision
import FlowAudit.Proofs.Fingerprint.Counted
import FlowAudit.Proofs.Fingerprint.Message
import FlowAudit.Proofs.Fingerprint.Versions
import FlowAudit.Proofs.Text.Utf8
import FlowAudit.Proofs.Markup.Reading
import FlowAudit.Proofs.Document.Forms
import FlowAudit.Proofs.Document.Pruned
import FlowAudit.Proofs.Document.Agreement
import FlowAudit.Proofs.Store.Queries
import FlowAudit.Proofs.Document.Padding
import FlowAudit.Proofs.Graph.Steps
import FlowAudit.Proofs.Loops.Charges
import FlowAudit.Proofs.Loops.Depth
import FlowAudit.Proofs.Fingerprint.Entries
import FlowAudit.Proofs.Resolution.Below
import FlowAudit.Proofs.Split.Walk
import FlowAudit.Proofs.Split.ClassNames
import FlowAudit.Proofs.Split.Completeness
import FlowAudit.Proofs.Store.Atomicity
import FlowAudit.Proofs.Sql.Reading
import FlowAudit.Proofs.Sql.Places
import FlowAudit.Proofs.Store.Script
import FlowAudit.Proofs.Text.Lower
import FlowAudit.Proofs.Files.Walk
import FlowAudit.Proofs.Source.Listing
import FlowAudit.Proofs.Source.Refinement
import FlowAudit.Proofs.Loops.Nesting
import FlowAudit.Proofs.MergeField.Blanks
import FlowAudit.Proofs.MergeField.Scanning
import FlowAudit.Proofs.Health.References
import FlowAudit.Proofs.Web.Url
import FlowAudit.Proofs.Config.Redaction
