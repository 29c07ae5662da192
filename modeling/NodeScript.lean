import NodeScript.Bytes.Decode
import NodeScript.Bytes.Encode
import NodeScript.Catalog.Behavior
import NodeScript.Catalog.Builtin
import NodeScript.Catalog.Control
import NodeScript.Catalog.Data
import NodeScript.Catalog.NodeType
import NodeScript.Catalog.Operators
import NodeScript.Catalog.Setting
import NodeScript.Command.Arguments
import NodeScript.Command.Basic
import NodeScript.Command.Workspace
import NodeScript.DataType.Basic
import NodeScript.DataType.Binary
import NodeScript.DataType.Name
import NodeScript.DataType.Sharing
import NodeScript.Decimal.Layout
import NodeScript.Decimal.Parse
import NodeScript.Decimal.Shortest
import NodeScript.Dict
import NodeScript.Double
import NodeScript.Format.Load
import NodeScript.Format.Record
import NodeScript.Format.Save
import NodeScript.Format.Upgrade
import NodeScript.Format.Version
import NodeScript.Graph.Address
import NodeScript.Graph.Basic
import NodeScript.Graph.Definition
import NodeScript.Graph.Error
import NodeScript.Graph.Node
import NodeScript.Graph.Search
import NodeScript.Graph.Wiring
import NodeScript.Host.Basic
import NodeScript.Json.Basic
import NodeScript.Json.Render
import NodeScript.Main
import NodeScript.Port
import NodeScript.Program.Basic
import NodeScript.Program.Entries
import NodeScript.Proofs.Accepted
import NodeScript.Proofs.Bytes.Canonical
import NodeScript.Proofs.Bytes.Codec
import NodeScript.Proofs.Bytes.Cursor
import NodeScript.Proofs.Bytes.Measured
import NodeScript.Proofs.Bytes.Nested
import NodeScript.Proofs.Bytes.Reads
import NodeScript.Proofs.Bytes.Spelled
import NodeScript.Proofs.Catalog.Canonical
import NodeScript.Proofs.Catalog.Config
import NodeScript.Proofs.Catalog.Leads
import NodeScript.Proofs.Catalog.Made
import NodeScript.Proofs.Catalog.Named
import NodeScript.Proofs.Catalog.Parametric
import NodeScript.Proofs.Catalog.Ports
import NodeScript.Proofs.Catalog.Typed
import NodeScript.Proofs.Dict
import NodeScript.Proofs.Double
import NodeScript.Proofs.Format.Authored
import NodeScript.Proofs.Format.Clamped
import NodeScript.Proofs.Format.Closed
import NodeScript.Proofs.Format.Copied
import NodeScript.Proofs.Format.Gapped
import NodeScript.Proofs.Format.Held
import NodeScript.Proofs.Format.InStep
import NodeScript.Proofs.Format.Loaded
import NodeScript.Proofs.Format.Lookalike
import NodeScript.Proofs.Format.Mirrored
import NodeScript.Proofs.Format.Nesting
import NodeScript.Proofs.Format.Numbered
import NodeScript.Proofs.Format.Older
import NodeScript.Proofs.Format.Readable
import NodeScript.Proofs.Format.Records
import NodeScript.Proofs.Format.Redefined
import NodeScript.Proofs.Format.Renumbered
import NodeScript.Proofs.Format.Replaced
import NodeScript.Proofs.Format.Reread
import NodeScript.Proofs.Format.Resaved
import NodeScript.Proofs.Format.Resolved
import NodeScript.Proofs.Format.Rewired
import NodeScript.Proofs.Format.Rewritten
import NodeScript.Proofs.Format.RoundTrip
import NodeScript.Proofs.Format.Superseded
import NodeScript.Proofs.Format.Tables
import NodeScript.Proofs.Format.Transcribed
import NodeScript.Proofs.Format.Truncated
import NodeScript.Proofs.Format.Unregistered
import NodeScript.Proofs.Format.Upgraded
import NodeScript.Proofs.Format.WireSet
import NodeScript.Proofs.Graph.Abandoned
import NodeScript.Proofs.Graph.Access
import NodeScript.Proofs.Graph.Acyclic
import NodeScript.Proofs.Graph.Boundaries
import NodeScript.Proofs.Graph.Closed
import NodeScript.Proofs.Graph.Completion
import NodeScript.Proofs.Graph.Declared
import NodeScript.Proofs.Graph.Edit
import NodeScript.Proofs.Graph.Editing
import NodeScript.Proofs.Graph.Effect
import NodeScript.Proofs.Graph.Foremost
import NodeScript.Proofs.Graph.Form
import NodeScript.Proofs.Graph.Lasting
import NodeScript.Proofs.Graph.LeastOrder
import NodeScript.Proofs.Graph.Looped
import NodeScript.Proofs.Graph.Mentions
import NodeScript.Proofs.Graph.Numbers
import NodeScript.Proofs.Graph.Ordered
import NodeScript.Proofs.Graph.Rebound
import NodeScript.Proofs.Graph.Restrict
import NodeScript.Proofs.Graph.Search
import NodeScript.Proofs.Graph.Settled
import NodeScript.Proofs.Graph.Sound
import NodeScript.Proofs.Graph.Spared
import NodeScript.Proofs.Graph.Still
import NodeScript.Proofs.Graph.Unchanged
import NodeScript.Proofs.Graph.Usage
import NodeScript.Proofs.Graph.Vacated
import NodeScript.Proofs.Graph.Wired
import NodeScript.Proofs.Host.Guarded
import NodeScript.Proofs.Host.Refused
import NodeScript.Proofs.Host.Reloaded
import NodeScript.Proofs.Host.Tallied
import NodeScript.Proofs.Host.Uncalled
import NodeScript.Proofs.Run.Abandoned
import NodeScript.Proofs.Run.Addressed
import NodeScript.Proofs.Run.Announced
import NodeScript.Proofs.Run.Captured
import NodeScript.Proofs.Run.Checked
import NodeScript.Proofs.Run.Collected
import NodeScript.Proofs.Run.Compiled
import NodeScript.Proofs.Run.Elsewhere
import NodeScript.Proofs.Run.Ends
import NodeScript.Proofs.Run.Follows
import NodeScript.Proofs.Run.Isolated
import NodeScript.Proofs.Run.Kept
import NodeScript.Proofs.Run.Limited
import NodeScript.Proofs.Run.Maintained
import NodeScript.Proofs.Run.Moved
import NodeScript.Proofs.Run.Panicked
import NodeScript.Proofs.Run.Reloaded
import NodeScript.Proofs.Run.Repeated
import NodeScript.Proofs.Run.Respected
import NodeScript.Proofs.Run.Straight
import NodeScript.Proofs.Run.Subscribed
import NodeScript.Proofs.Run.Typed
import NodeScript.Proofs.Run.Upstream
import NodeScript.Proofs.Run.Vacated
import NodeScript.Proofs.Run.Watched
import NodeScript.Run.Context
import NodeScript.Run.Draws
import NodeScript.Run.Error
import NodeScript.Run.Machine
import NodeScript.Run.Scope
import NodeScript.Sample
import NodeScript.Settings.Basic
import NodeScript.Settings.Environment
import NodeScript.Settings.File
import NodeScript.Settings.Json
import NodeScript.Summary.Basic
import NodeScript.Summary.Listing
import NodeScript.Text.Blank
import NodeScript.Text.Glob
import NodeScript.Text.Line
import NodeScript.Toml.Basic
import NodeScript.Toml.Document
import NodeScript.Toml.Quoted
import NodeScript.Toml.Scalar
import NodeScript.Toml.Table
import NodeScript.Value.Basic
import NodeScript.Value.Binary
