import Bindery.Arena.Access
import Bindery.Arena.Allocate
import Bindery.Arena.Basic
import Bindery.Arena.Call
import Bindery.Arena.Description
import Bindery.Arena.Error
import Bindery.Arena.Offset
import Bindery.Artifact.Builder
import Bindery.Artifact.Description
import Bindery.Artifact.Error
import Bindery.Artifact.Fresh
import Bindery.Artifact.Header
import Bindery.Artifact.Reader
import Bindery.Artifact.Report
import Bindery.Checksum.Basic
import Bindery.Checksum.BitSerial
import Bindery.Checksum.OfFile
import Bindery.CommandLine.Arguments
import Bindery.CommandLine.Footprint
import Bindery.CommandLine.Invocation
import Bindery.CommandLine.Run
import Bindery.Configuration.Basic
import Bindery.Configuration.Loading
import Bindery.Configuration.Record
import Bindery.FileSystem.Basic
import Bindery.FileSystem.ByteTree
import Bindery.FileSystem.Content
import Bindery.FileSystem.Fault
import Bindery.FileSystem.Observed
import Bindery.FileSystem.Operations
import Bindery.FileSystem.Walk
import Bindery.Freshness
import Bindery.JsonValue
import Bindery.LittleEndian
import Bindery.Locator
import Bindery.Main
import Bindery.Metadata.Basic
import Bindery.Metadata.Codec
import Bindery.Metadata.Varint
import Bindery.Path.Basic
import Bindery.Proofs.Arena.Bounds
import Bindery.Proofs.Arena.Effects
import Bindery.Proofs.Arena.Elements
import Bindery.Proofs.Arena.Extent
import Bindery.Proofs.Arena.Ledger
import Bindery.Proofs.Arena.Leftovers
import Bindery.Proofs.Arena.Lifecycle
import Bindery.Proofs.Arena.Positions
import Bindery.Proofs.Arena.Reach
import Bindery.Proofs.Arena.Rejection
import Bindery.Proofs.Arena.Remapping
import Bindery.Proofs.Arena.Runs
import Bindery.Proofs.Arena.Separation
import Bindery.Proofs.Arena.Storing
import Bindery.Proofs.Artifact.Attempts
import Bindery.Proofs.Artifact.CallLists
import Bindery.Proofs.Artifact.Cleanup
import Bindery.Proofs.Artifact.Destination
import Bindery.Proofs.Artifact.Noting
import Bindery.Proofs.Artifact.Readers
import Bindery.Proofs.Artifact.Replacement
import Bindery.Proofs.Artifact.RoundTrip
import Bindery.Proofs.Artifact.Schedule
import Bindery.Proofs.Artifact.Script
import Bindery.Proofs.Artifact.Snapshots
import Bindery.Proofs.Artifact.Truncation
import Bindery.Proofs.Checksum.Bursts
import Bindery.Proofs.CommandLine.Build
import Bindery.Proofs.CommandLine.BuildThenCheck
import Bindery.Proofs.CommandLine.EditedSources
import Bindery.Proofs.CommandLine.FreshShortcut
import Bindery.Proofs.Configuration.Validation
import Bindery.Proofs.FileSystem.Edits
import Bindery.Proofs.FileSystem.Parents
import Bindery.Proofs.FileSystem.Places
import Bindery.Proofs.FileSystem.Slices
import Bindery.Proofs.Freshness
import Bindery.Proofs.Freshness.Order
import Bindery.Proofs.Locator.Completion
import Bindery.Proofs.Locator.Fallback
import Bindery.Proofs.Locator.Shadowing
import Bindery.Proofs.Metadata.Provenance
import Bindery.Proofs.Metadata.RoundTrip
import Bindery.Proofs.SortedMap
import Bindery.Proofs.Steps
import Bindery.Proofs.StringTable.Builds
import Bindery.Proofs.Time.Timestamp
import Bindery.Proofs.Version.Numbers
import Bindery.Provenance
import Bindery.Record
import Bindery.SortedMap
import Bindery.Source
import Bindery.StringTable
import Bindery.Text.Quoted
import Bindery.Text.Unpictured
import Bindery.Text.Utf8
import Bindery.Time.Calendar
import Bindery.Time.Instant
import Bindery.Time.Timestamp
import Bindery.Toml.Document
import Bindery.Toml.Moment
import Bindery.Toml.Number
import Bindery.Toml.Reader
import Bindery.Toml.Text
import Bindery.Toml.Value
import Bindery.Version
