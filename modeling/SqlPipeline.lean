import SqlPipeline.Database.Shown
import SqlPipeline.Settings.Stored
import SqlPipeline.Proofs.Placement.DepthFirst
import SqlPipeline.Proofs.Placement.Compile
import SqlPipeline.Proofs.Registry.Ledger
import SqlPipeline.Proofs.Execution.Idle
import SqlPipeline.Proofs.Registry.Calls
import SqlPipeline.Proofs.Placement.Free
import SqlPipeline.Proofs.Registry.Opened
import SqlPipeline.Proofs.Guard.Conditions
import SqlPipeline.Proofs.Guard.Sent
import SqlPipeline.Proofs.Execution.DryRun
import SqlPipeline.Proofs.Execution.Order
import SqlPipeline.Proofs.Keys.Stored
import SqlPipeline.Proofs.Record.Columns
import SqlPipeline.Proofs.Keys.Updated
import SqlPipeline.Proofs.Condition.Reading
import SqlPipeline.Proofs.Condition.Enclosure
import SqlPipeline.Proofs.Keys.Deleted
import SqlPipeline.Proofs.Condition.Members
import SqlPipeline.Proofs.Condition.Grammar
import SqlPipeline.Proofs.Condition.Meaning
import SqlPipeline.Proofs.Condition.Denial
import SqlPipeline.Proofs.Condition.Shelter
import SqlPipeline.Proofs.Explained.Placeholders
import SqlPipeline.Proofs.Explained.Inlined
import SqlPipeline.Proofs.Explained.Literals
import SqlPipeline.Proofs.Execution.Traced
import SqlPipeline.Proofs.Insert.Written
import SqlPipeline.Proofs.Insert.Rows
import SqlPipeline.Proofs.Record.Rows
import SqlPipeline.Proofs.Record.Stored
import SqlPipeline.Proofs.Insert.Returned
import SqlPipeline.Proofs.Insert.Collected
import SqlPipeline.Proofs.Insert.Copied
import SqlPipeline.Proofs.Insert.Numbered
import SqlPipeline.Proofs.Rendered.Layout
import SqlPipeline.Proofs.Rendered.Bound
import SqlPipeline.Proofs.Placement.Turns
import SqlPipeline.Proofs.Placement.Reported
import SqlPipeline.Proofs.Placement.Displaced
import SqlPipeline.Proofs.Placement.Inserted
import SqlPipeline.Proofs.Registry.Newcomer
import SqlPipeline.Proofs.Registry.Replaced
import SqlPipeline.Proofs.Registry.Removed
import SqlPipeline.Proofs.Registry.Warned
import SqlPipeline.Proofs.Clauses.Gathered
import SqlPipeline.Proofs.Placement.Alike
import SqlPipeline.Proofs.Execution.Queued
import SqlPipeline.Proofs.Insert.Upserted
import SqlPipeline.Proofs.Change.Assigned
import SqlPipeline.Proofs.Record.Shaped
import SqlPipeline.Proofs.Keys.Carried
import SqlPipeline.Proofs.Outcome.Accumulated
import SqlPipeline.Proofs.Execution.Ignored
import SqlPipeline.Proofs.Execution.Withheld
import SqlPipeline.Proofs.Find.Loaded
import SqlPipeline.Proofs.JsonText.Words
import SqlPipeline.Proofs.Settings.Restored
import SqlPipeline.Proofs.Rendered.Fragments
import SqlPipeline.Proofs.Explained.ReadBack
