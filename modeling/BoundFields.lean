import BoundFields.Main
import BoundFields.Proofs.Number.Whole
import BoundFields.Proofs.Text.Trim
import BoundFields.Proofs.Outcome
import BoundFields.Proofs.Calendar.Clock
import BoundFields.Proofs.Calendar.Written
import BoundFields.Proofs.Metadata.Access
import BoundFields.Proofs.Declaration.Bracket
import BoundFields.Proofs.Declaration.Printed
import BoundFields.Proofs.Declaration.Groups
import BoundFields.Proofs.Declaration.Build
import BoundFields.Proofs.Declaration.RoundTrip
import BoundFields.Proofs.Declaration.Validity
import BoundFields.Proofs.Metadata.Queue
import BoundFields.Proofs.Sync.Echo
import BoundFields.Proofs.Sync.Coalescing
import BoundFields.Proofs.Control.NormalForm
import BoundFields.Proofs.Sync.InStep
import BoundFields.Proofs.Sync.Rendering
import BoundFields.Proofs.Sync.Session
import BoundFields.Proofs.Sync.Safety
import BoundFields.Proofs.Control.Equality
import BoundFields.Proofs.Sync.Overtaking
import BoundFields.Proofs.Keyed
import BoundFields.Proofs.Sync.Call
import BoundFields.Proofs.Sync.OwnWrites
import BoundFields.Proofs.Sync.LateBinding
import BoundFields.Proofs.Declaration.Inlining
import BoundFields.Proofs.Vault.Tree
import BoundFields.Proofs.Vault.Documents
import BoundFields.Proofs.Metadata.FrontMatter
import BoundFields.Proofs.Vault.Reopening
import BoundFields.Proofs.Command.Document
import BoundFields.Proofs.Command.Set
import BoundFields.Proofs.Declaration.Form
import BoundFields.Proofs.Declaration.Tokenized
import BoundFields.Proofs.Text.Pieces
import BoundFields.Proofs.Metadata.Child
import BoundFields.Proofs.Metadata.Update
import BoundFields.Proofs.Metadata.Refusal
import BoundFields.Proofs.Target.Reference
import BoundFields.Proofs.Target.BareName
import BoundFields.Proofs.Sync.Lifetime
import BoundFields.Proofs.Sync.Notification
import BoundFields.Proofs.Sync.Mounting
import BoundFields.Proofs.Sync.FailedEdit
import BoundFields.Proofs.Ascending
import BoundFields.Proofs.Target.Index
import BoundFields.Proofs.Target.Written
import BoundFields.Proofs.Target.NormalForm
import BoundFields.Proofs.Target.Policy
import BoundFields.Proofs.Target.Reread
import BoundFields.Proofs.Declaration.Accepted
import BoundFields.Proofs.Control.Accepted
import BoundFields.Proofs.Control.Fallback
import BoundFields.Proofs.Metadata.DistinctKeys
import BoundFields.Proofs.Sync.Reordering
import BoundFields.Proofs.Sync.Repetition
import BoundFields.Proofs.Sync.ReadBack
import BoundFields.Proofs.Metadata.Sameness
import BoundFields.Proofs.Control.Equivalence
import BoundFields.Proofs.Control.Role
import BoundFields.Proofs.Control.Range
import BoundFields.Proofs.Control.Default
import BoundFields.Proofs.Declaration.Loading
import BoundFields.Proofs.Settings.Templates
import BoundFields.Proofs.Metadata.Splitting
import BoundFields.Proofs.Scan.Concatenation
import BoundFields.Proofs.Scan.Location
import BoundFields.Proofs.Scan.Fenced
import BoundFields.Proofs.Sync.Underway
import BoundFields.Proofs.Declaration.Quoted
import BoundFields.Proofs.Declaration.Walk
import BoundFields.Proofs.Declaration.Agreement
import BoundFields.Proofs.Declaration.Positions
