import GraphMapping.Text.Blank
import GraphMapping.Identifier
import GraphMapping.Dict
import GraphMapping.Number.Binary64
import GraphMapping.Text.Shown
import GraphMapping.Time.Calendar
import GraphMapping.Time.Instant
import GraphMapping.Time.Stamp
import GraphMapping.Error
import GraphMapping.Value
import GraphMapping.Value.FieldType
import GraphMapping.Value.Json
import GraphMapping.Mapping.KeyStrategy
import GraphMapping.Mapping.Tag
import GraphMapping.LoadResult
import GraphMapping.Record
import GraphMapping.Statement
import GraphMapping.Statement.Condition
import GraphMapping.Statement.Load
import GraphMapping.Mapping.Descriptor
import GraphMapping.Mapping.Registration
import GraphMapping.Mapping.Registry
import GraphMapping.Schema.Item
import GraphMapping.Entity
import GraphMapping.Entity.Declared
import GraphMapping.Plan
import GraphMapping.Plan.Snapshot
import GraphMapping.Plan.Walk
import GraphMapping.Database.Action
import GraphMapping.Plan.Batch
import GraphMapping.Plan.Persist
import GraphMapping.ObjectGraph
import GraphMapping.Schema.Live
import GraphMapping.Schema.Reconcile
import GraphMapping.Database.Scripted
import GraphMapping.Session
import GraphMapping.Admin
import GraphMapping.Entity.Survey
import GraphMapping.Main
import GraphMapping.Number.Decimal
import GraphMapping.Value.Json.Text
import GraphMapping.Yaml.Fault
import GraphMapping.Yaml.Scalar.Gap
import GraphMapping.Yaml.Scalar.Plain
import GraphMapping.Yaml.Scalar.Quoted
import GraphMapping.Yaml.Token
import GraphMapping.Yaml.Scalar.Block
import GraphMapping.Yaml.Token.Name
import GraphMapping.Yaml.Token.Stream
import GraphMapping.Yaml.Document
import GraphMapping.Proofs.Dict.Groups
import GraphMapping.Proofs.Dict.Lookup
import GraphMapping.Proofs.Walk.Success
import GraphMapping.Proofs.Walk.Trail
import GraphMapping.Proofs.Walk.Records
import GraphMapping.Proofs.Walk.Visits
import GraphMapping.Proofs.Walk.Ball
import GraphMapping.Proofs.Walk.Plain
import GraphMapping.Proofs.Walk.Keys
import GraphMapping.Proofs.Walk.Closed
import GraphMapping.Proofs.Database.Returns
import GraphMapping.Proofs.Persist.Calls
import GraphMapping.Proofs.Persist.Known
import GraphMapping.Proofs.Persist.Ends
import GraphMapping.Proofs.Session.Save
import GraphMapping.Proofs.Plan.Upsert
import GraphMapping.Proofs.Mapping.Bindings
import GraphMapping.Proofs.ObjectGraph.Rebuild
import GraphMapping.Proofs.Walk.Declared
import GraphMapping.Proofs.ObjectGraph.Reload
import GraphMapping.Proofs.Walk.Again
import GraphMapping.Proofs.Walk.Merged
import GraphMapping.Proofs.Persist.Parts
import GraphMapping.Proofs.Persist.Progress
import GraphMapping.Proofs.Persist.Recorded
import GraphMapping.Proofs.Persist.Verbs
import GraphMapping.Proofs.Entity
import GraphMapping.Proofs.Session.Handed
import GraphMapping.Proofs.Session.Numbered
import GraphMapping.Proofs.Mapping.Names
import GraphMapping.Proofs.ObjectGraph.Stored
import GraphMapping.Proofs.Session.Resave
import GraphMapping.Proofs.Plan.PropertyNames
import GraphMapping.Proofs.ObjectGraph.Passes
import GraphMapping.Proofs.ObjectGraph.Linking
import GraphMapping.Proofs.ObjectGraph.Fields
import GraphMapping.Proofs.ObjectGraph.Contents
import GraphMapping.Proofs.Mapping.Registered
import GraphMapping.Proofs.ObjectGraph.Snapshots
import GraphMapping.Proofs.Walk.Settled
import GraphMapping.Proofs.ObjectGraph.Replan
import GraphMapping.Proofs.Session.Stable
import GraphMapping.Proofs.Schema.Order
import GraphMapping.Proofs.Mapping.Places
import GraphMapping.Proofs.Mapping.Reordered
import GraphMapping.Proofs.Session.Transactions
import GraphMapping.Proofs.Database.Within
import GraphMapping.Proofs.Schema.Changes
import GraphMapping.Proofs.Schema.Catalog
import GraphMapping.Proofs.Schema.Store
import GraphMapping.Proofs.Schema.Sites
import GraphMapping.Proofs.Schema.Assert
import GraphMapping.Proofs.ObjectGraph.Loops
import GraphMapping.Proofs.Mapping.WellFormed
import GraphMapping.Proofs.Walk.Refusals
import GraphMapping.Proofs.Session.Identities
import GraphMapping.Proofs.Time.Stamp
import GraphMapping.Proofs.Text.ByteOrder
import GraphMapping.Proofs.Text.Cuts
import GraphMapping.Proofs.Mapping.Tags
import GraphMapping.Proofs.Time.Order
import GraphMapping.Proofs.Time.Form
import GraphMapping.Proofs.Value.Typed
import GraphMapping.Proofs.Value.Storage
import GraphMapping.Proofs.ObjectGraph.Restored
import GraphMapping.Proofs.ObjectGraph.RoundTrip
import GraphMapping.Proofs.Plan.Delivery
import GraphMapping.Proofs.Plan.GeneratedKeys
import GraphMapping.Proofs.ObjectGraph.NativeKeys
import GraphMapping.Proofs.Session.NativeSave
import GraphMapping.Proofs.Identifier
import GraphMapping.Proofs.Schema.Statements
import GraphMapping.Proofs.Statement.Parameters
import GraphMapping.Proofs.Schema.Verify
import GraphMapping.Proofs.Settings.Members
import GraphMapping.Proofs.Settings.Sources
