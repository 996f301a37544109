import FileOrganizer.Main
import FileOrganizer.Proofs.Tree.Node
import FileOrganizer.Proofs.Tree.Walk
import FileOrganizer.Proofs.Tree.Locate
import FileOrganizer.Proofs.Tree.Growth
import FileOrganizer.Proofs.Tree.Change
import FileOrganizer.Proofs.Tree.Rename
import FileOrganizer.Proofs.Tree.Transfer
import FileOrganizer.Proofs.Batch.Stages
import FileOrganizer.Proofs.Batch.Archive
import FileOrganizer.Proofs.Batch.Conservation
import FileOrganizer.Proofs.Path.Parts
import FileOrganizer.Proofs.Path.Places
import FileOrganizer.Proofs.Tree.Moved
import FileOrganizer.Proofs.Ordered
import FileOrganizer.Proofs.Tags.Facts
import FileOrganizer.Proofs.Tags.Store
import FileOrganizer.Proofs.Tags.Overlay
import FileOrganizer.Proofs.Tags.View
import FileOrganizer.Proofs.Tags.Trial
import FileOrganizer.Proofs.Path.Parent
import FileOrganizer.Proofs.Tree.Descent
import FileOrganizer.Proofs.Json.RoundTrip
import FileOrganizer.Proofs.Tree.Prune
import FileOrganizer.Proofs.Tree.Return
import FileOrganizer.Proofs.Undo.Agreement
import FileOrganizer.Proofs.Undo.Course
import FileOrganizer.Proofs.Undo.Kept
import FileOrganizer.Proofs.Undo.Rollback
import FileOrganizer.Proofs.Batch.DryRun
import FileOrganizer.Proofs.Undo.Inverse
import FileOrganizer.Proofs.Undo.Bystanders
import FileOrganizer.Proofs.Undo.Spelling
import FileOrganizer.Proofs.Tree.Steady
import FileOrganizer.Proofs.Batch.Claims
import FileOrganizer.Proofs.Batch.Landing
import FileOrganizer.Proofs.Batch.Tracking
import FileOrganizer.Proofs.Batch.Placement
import FileOrganizer.Proofs.Batch.Whereabouts
import FileOrganizer.Proofs.Batch.LastCopy
import FileOrganizer.Proofs.Tags.Originals
import FileOrganizer.Proofs.Batch.Originals
import FileOrganizer.Proofs.Path.Absolute
import FileOrganizer.Proofs.Tree.Attributes
import FileOrganizer.Proofs.Batch.Current
import FileOrganizer.Proofs.Batch.SafeMode
import FileOrganizer.Proofs.Batch.Records
import FileOrganizer.Proofs.Tree.Shift
import FileOrganizer.Proofs.Batch.Plan
import FileOrganizer.Proofs.Batch.Order
import FileOrganizer.Proofs.Scan
import FileOrganizer.Proofs.Category
import FileOrganizer.Proofs.Batch.Aftermath
import FileOrganizer.Proofs.Copies
import FileOrganizer.Proofs.Batch.Again
import FileOrganizer.Proofs.Scope
import FileOrganizer.Proofs.Batch.Marking
import FileOrganizer.Proofs.Watch
import FileOrganizer.Proofs.Undo.Reorder
import FileOrganizer.Proofs.Batch.Pool
import FileOrganizer.Proofs.Undo.Schedule
import FileOrganizer.Proofs.Tags.Tables
import FileOrganizer.Proofs.Tree.AllOrNothing
import FileOrganizer.Proofs.Time.Calendar
import FileOrganizer.Proofs.Time.RoundTrip
import FileOrganizer.Proofs.Json.Decode
import FileOrganizer.Proofs.Rules.Document
import FileOrganizer.Proofs.Tree.Displaced
import FileOrganizer.Proofs.Batch.Displaced
import FileOrganizer.Proofs.Text.Bytes
import FileOrganizer.Proofs.Bytes.Zip
import FileOrganizer.Proofs.Tags.Twins
import FileOrganizer.Proofs.Tags.Records
import FileOrganizer.Proofs.Batch.Trace
import FileOrganizer.Proofs.Tree.Linked
import FileOrganizer.Proofs.Tree.Tidy
import FileOrganizer.Proofs.Tree.Lasting
import FileOrganizer.Proofs.Batch.Unpacking
import FileOrganizer.Proofs.Batch.Unpacked
import FileOrganizer.Proofs.Batch.Settled
import FileOrganizer.Proofs.Batch.Skipped
import FileOrganizer.Proofs.Batch.Single
import FileOrganizer.Proofs.Batch.Copying
import FileOrganizer.Proofs.Batch.Renaming
import FileOrganizer.Proofs.Batch.Fate
import FileOrganizer.Proofs.Batch.Sweeps
import FileOrganizer.Proofs.Rules.Age
import FileOrganizer.Proofs.Tags.Filed
import FileOrganizer.Proofs.Text.Replace
import FileOrganizer.Proofs.File.Template
import FileOrganizer.Proofs.Tree.CleanUp
import FileOrganizer.Proofs.Path.Spelled
import FileOrganizer.Proofs.File.Relocated
import FileOrganizer.Proofs.Trash
import FileOrganizer.Proofs.File.Components
import FileOrganizer.Proofs.Batch.Fresh
import FileOrganizer.Proofs.Time.Lenient
import FileOrganizer.Proofs.Time.Bound
import FileOrganizer.Proofs.Rules.Reread
import FileOrganizer.Proofs.Undo.Appended
import FileOrganizer.Proofs.Undo.Accounted
import FileOrganizer.Proofs.Path.Resolution
