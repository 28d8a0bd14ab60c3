import MeshOperator.Chart.Installer
import MeshOperator.Chart.Path
import MeshOperator.Cluster.Action
import MeshOperator.Cluster.Api
import MeshOperator.Cluster.Basic
import MeshOperator.Cluster.Journal
import MeshOperator.Config
import MeshOperator.Data.Access
import MeshOperator.Data.Basic
import MeshOperator.Data.Json
import MeshOperator.Data.SetOrder
import MeshOperator.Data.Shown
import MeshOperator.Data.Template
import MeshOperator.Fault
import MeshOperator.Log.Logger
import MeshOperator.Log.Record
import MeshOperator.Number.Double
import MeshOperator.Number.Layout
import MeshOperator.Number.Literal
import MeshOperator.Number.Shortest
import MeshOperator.Proofs.Chart.Coverage
import MeshOperator.Proofs.Chart.Install
import MeshOperator.Proofs.Chart.Patches
import MeshOperator.Proofs.Chart.Places
import MeshOperator.Proofs.Chart.Quiet
import MeshOperator.Proofs.Chart.Releases
import MeshOperator.Proofs.Chart.Removal
import MeshOperator.Proofs.Chart.Sequence
import MeshOperator.Proofs.Chart.Stamping
import MeshOperator.Proofs.Chart.Tally
import MeshOperator.Proofs.Chart.Uninstall
import MeshOperator.Proofs.Cluster.Apart
import MeshOperator.Proofs.Cluster.Calls
import MeshOperator.Proofs.Cluster.Deeds
import MeshOperator.Proofs.Cluster.Matching
import MeshOperator.Proofs.Cluster.Steady
import MeshOperator.Proofs.Cluster.Stored
import MeshOperator.Proofs.Cluster.Timeline
import MeshOperator.Proofs.Config.Backoff
import MeshOperator.Proofs.Data.Entries
import MeshOperator.Proofs.Data.Fields
import MeshOperator.Proofs.Data.Mappings
import MeshOperator.Proofs.Data.MergePatch
import MeshOperator.Proofs.Data.Sameness
import MeshOperator.Proofs.Json.Layout
import MeshOperator.Proofs.Json.Nodes
import MeshOperator.Proofs.Json.Numerals
import MeshOperator.Proofs.Json.ReadBack
import MeshOperator.Proofs.Json.Scalars
import MeshOperator.Proofs.Json.Spelling
import MeshOperator.Proofs.Json.Strings
import MeshOperator.Proofs.Json.Syntax
import MeshOperator.Proofs.Json.Tokens
import MeshOperator.Proofs.Json.Unambiguous
import MeshOperator.Proofs.Json.Values
import MeshOperator.Proofs.Json.Written
import MeshOperator.Proofs.Log.Entries
import MeshOperator.Proofs.Log.Lines
import MeshOperator.Proofs.Number.Rounding
import MeshOperator.Proofs.Number.Scaling
import MeshOperator.Proofs.Number.Shortest
import MeshOperator.Proofs.Reconcile.Accounting
import MeshOperator.Proofs.Reconcile.ControlPlane
import MeshOperator.Proofs.Reconcile.Course
import MeshOperator.Proofs.Reconcile.Deletion
import MeshOperator.Proofs.Reconcile.Events
import MeshOperator.Proofs.Reconcile.Health
import MeshOperator.Proofs.Reconcile.History
import MeshOperator.Proofs.Reconcile.Independence
import MeshOperator.Proofs.Reconcile.Interleaving
import MeshOperator.Proofs.Reconcile.Matching
import MeshOperator.Proofs.Reconcile.Raising
import MeshOperator.Proofs.Reconcile.Readiness
import MeshOperator.Proofs.Reconcile.Recording
import MeshOperator.Proofs.Reconcile.Reporting
import MeshOperator.Proofs.Reconcile.Sequence
import MeshOperator.Proofs.Reconcile.Silence
import MeshOperator.Proofs.Reconcile.Sources
import MeshOperator.Proofs.Reconcile.Teardown
import MeshOperator.Proofs.Reconcile.Upkeep
import MeshOperator.Proofs.Reconcile.Visits
import MeshOperator.Proofs.Reconcile.Writes
import MeshOperator.Proofs.Revision.Encoding
import MeshOperator.Proofs.Revision.Recompute
import MeshOperator.Proofs.Revision.StatusForm
import MeshOperator.Proofs.Revision.StatusUpdate
import MeshOperator.Proofs.Revision.Transitions
import MeshOperator.Proofs.Revision.Upkeep
import MeshOperator.Proofs.Revision.Wording
import MeshOperator.Proofs.Text.Cutting
import MeshOperator.Proofs.Text.Occurrence
import MeshOperator.Proofs.Values.Building
import MeshOperator.Proofs.Values.Copies
import MeshOperator.Proofs.Values.Effective
import MeshOperator.Proofs.Values.Frame
import MeshOperator.Proofs.Values.Graph
import MeshOperator.Proofs.Values.Laying
import MeshOperator.Proofs.Values.Override
import MeshOperator.Proofs.Values.Paths
import MeshOperator.Proofs.Values.Setting
import MeshOperator.Proofs.Values.Tracking
import MeshOperator.Proofs.Values.Trees
import MeshOperator.Proofs.Values.Typed
import MeshOperator.Proofs.Values.Walks
import MeshOperator.Proofs.Watch.Churn
import MeshOperator.Proofs.Watch.Owners
import MeshOperator.Proofs.Watch.Routing
import MeshOperator.Proofs.Watch.Triggers
import MeshOperator.Proofs.Yaml.Documents
import MeshOperator.Proofs.Yaml.Filling
import MeshOperator.Proofs.Yaml.Lexing
import MeshOperator.Proofs.Yaml.Passing
import MeshOperator.Proofs.Yaml.Reading
import MeshOperator.Proofs.Yaml.Words
import MeshOperator.Reconcile.Basic
import MeshOperator.Reconcile.Handlers
import MeshOperator.Reconcile.Readiness
import MeshOperator.Revision.Basic
import MeshOperator.Revision.Condition
import MeshOperator.Revision.Key
import MeshOperator.Revision.Ownership
import MeshOperator.Revision.Status
import MeshOperator.Startup
import MeshOperator.Text.Base64
import MeshOperator.Text.Blank
import MeshOperator.Text.CodePoint
import MeshOperator.Text.Cut
import MeshOperator.Text.Digit
import MeshOperator.Text.Escaped
import MeshOperator.Text.Printable
import MeshOperator.Text.Quoted
import MeshOperator.Text.SmallLetter
import MeshOperator.Text.Utf8
import MeshOperator.Time.Calendar
import MeshOperator.Time.Clock
import MeshOperator.Values.Basic
import MeshOperator.Values.Decode
import MeshOperator.Values.Store
import MeshOperator.Values.Twins
import MeshOperator.Watch.Kind
import MeshOperator.Watch.WebhookFilter
import MeshOperator.Yaml.Cursor
import MeshOperator.Yaml.DocumentValue
import MeshOperator.Yaml.Lexer
import MeshOperator.Yaml.Merge
import MeshOperator.Yaml.Node
import MeshOperator.Yaml.Pen
import MeshOperator.Yaml.Presentation
import MeshOperator.Yaml.ScalarStyle
import MeshOperator.Yaml.ScalarValue
import MeshOperator.Yaml.Scalars
import MeshOperator.Yaml.Tag
import MeshOperator.Yaml.Token
import MeshOperator.Yaml.Writer
