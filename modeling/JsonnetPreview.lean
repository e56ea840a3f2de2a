import JsonnetPreview.Main
import JsonnetPreview.Proofs.Report.Banner
import JsonnetPreview.Proofs.Report.Trace
import JsonnetPreview.Proofs.Session.Coherence
import JsonnetPreview.Proofs.Session.Interleaving
import JsonnetPreview.Proofs.Panel.Resubmission
import JsonnetPreview.Proofs.Stream.Documents
import JsonnetPreview.Proofs.Stream.Parts
import JsonnetPreview.Proofs.Report.Insertion
import JsonnetPreview.Proofs.Session.History
import JsonnetPreview.Proofs.Session.Agreement
import JsonnetPreview.Proofs.Watch.Single
import JsonnetPreview.Proofs.Session.Following
import JsonnetPreview.Proofs.Decimal.Scaling
import JsonnetPreview.Proofs.Json.Numbers
import JsonnetPreview.Proofs.Json.Readable
import JsonnetPreview.Proofs.Json.RoundTrip
import JsonnetPreview.Proofs.Preview.NormalForm
import JsonnetPreview.Proofs.CommandLine.Check
import JsonnetPreview.Proofs.Json.Newlines
import JsonnetPreview.Proofs.World.FileTree
import JsonnetPreview.Proofs.Config.Load
import JsonnetPreview.Proofs.Json.Scalar
import JsonnetPreview.Proofs.Config.Edits
import JsonnetPreview.Proofs.Report.Accounting
import JsonnetPreview.Proofs.Source.Numbering
import JsonnetPreview.Proofs.Session.Saves
import JsonnetPreview.Proofs.Panel.Console
import JsonnetPreview.Proofs.Panel.Messages
import JsonnetPreview.Proofs.Report.Grammar
import JsonnetPreview.Proofs.Report.Cut
import JsonnetPreview.Proofs.Report.StaticError
import JsonnetPreview.Proofs.Source.Listing
import JsonnetPreview.Proofs.Source.Excerpt
import JsonnetPreview.Proofs.CommandLine.Faults
import JsonnetPreview.Proofs.Renderer.Answer
import JsonnetPreview.Proofs.CommandLine.Configuration
import JsonnetPreview.Proofs.CommandLine.Spelling
import JsonnetPreview.Proofs.Config.Externals
import JsonnetPreview.Proofs.Config.Libraries
import JsonnetPreview.Proofs.Config.Restart
import JsonnetPreview.Proofs.Decimal.Rounding
import JsonnetPreview.Proofs.Renderer.Carried
import JsonnetPreview.Proofs.Session.Variables
import JsonnetPreview.Proofs.Tables
import JsonnetPreview.Proofs.Text.Replace
import JsonnetPreview.Proofs.Watch.Debounce
import JsonnetPreview.Proofs.Report.PrintedLine
import JsonnetPreview.Proofs.Session.Lookup
import JsonnetPreview.Proofs.Ksonnet
import JsonnetPreview.Proofs.Preview.Views
