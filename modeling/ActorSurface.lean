import ActorSurface.Main
import ActorSurface.Program.Trace
import ActorSurface.Token.Cursor
import ActorSurface.Proofs.Actor.Grammar
import ActorSurface.Proofs.Actor.Derivation
import ActorSurface.Proofs.Actor.Prefix
import ActorSurface.Proofs.Actor.Acceptance
import ActorSurface.Proofs.Actor.Heading
import ActorSurface.Proofs.Token.Pattern
import ActorSurface.Proofs.Token.Runs
import ActorSurface.Proofs.Token.Dispatch
import ActorSurface.Proofs.Token.Delivery
import ActorSurface.Proofs.FileSystem.Passage
import ActorSurface.Proofs.FileSystem.Detour
import ActorSurface.Proofs.FileSystem.Answers
import ActorSurface.Proofs.FileSystem.Paths
import ActorSurface.Proofs.FileSystem.Rooted
import ActorSurface.Proofs.Publish.Withdrawal
import ActorSurface.Proofs.FileSystem.Siblings
import ActorSurface.Proofs.Publish.Placement
import ActorSurface.Proofs.Publish.Steps
import ActorSurface.Proofs.Compile.Outcome
import ActorSurface.Proofs.Publish.Interruption
import ActorSurface.Proofs.FileSystem.Held
import ActorSurface.Proofs.FileSystem.Sight
import ActorSurface.Proofs.FileSystem.Concern
import ActorSurface.Proofs.Actor.Keywords
import ActorSurface.Proofs.Actor.Balance
import ActorSurface.Proofs.Actor.Unmatched
import ActorSurface.Proofs.Actor.WaitCalls
import ActorSurface.Proofs.Token.Segments
import ActorSurface.Proofs.Text.Lines
import ActorSurface.Proofs.Compile.Pipeline
import ActorSurface.Proofs.Publish.Causes
import ActorSurface.Proofs.Compile.Lines
import ActorSurface.Proofs.Compile.Footprint
import ActorSurface.Proofs.FileSystem.Ends
import ActorSurface.Proofs.FileSystem.Pair
import ActorSurface.Proofs.Publish.Specification
import ActorSurface.Proofs.Publish.Staging
import ActorSurface.Proofs.Text.LineTable
import ActorSurface.Proofs.Token.Items
import ActorSurface.Proofs.Token.Lookahead
import ActorSurface.Proofs.Token.Seams
import ActorSurface.Proofs.Token.LineEndings
import ActorSurface.Proofs.Token.Spoiled
import ActorSurface.Proofs.Actor.Lines
import ActorSurface.Proofs.Actor.Concatenation
import ActorSurface.Proofs.Actor.LineEndings
import ActorSurface.Proofs.Engine.Regeneration
import ActorSurface.Proofs.FileSystem.Revealed
import ActorSurface.Proofs.Program.Moments
import ActorSurface.Proofs.Compile.Contents
import ActorSurface.Proofs.Compile.Moments
import ActorSurface.Proofs.FileSystem.Updates
import ActorSurface.Proofs.Publish.Repetition
import ActorSurface.Proofs.Compile.Repetition
import ActorSurface.Proofs.Command.Streams
import ActorSurface.Proofs.Text.Decoding
import ActorSurface.Proofs.Text.Separators
import ActorSurface.Proofs.Text.IllFormed
import ActorSurface.Proofs.Compile.Muting
import ActorSurface.Proofs.Command.Arguments
import ActorSurface.Proofs.Actor.Faults
import ActorSurface.Proofs.Actor.Continuation
import ActorSurface.Proofs.Actor.Violations
import ActorSurface.Proofs.Actor.Modes
import ActorSurface.Proofs.Actor.Refusal
import ActorSurface.Proofs.Token.Slices
import ActorSurface.Proofs.Actor.Rejoined
import ActorSurface.Proofs.Token.Comments
import ActorSurface.Proofs.Token.Opacity
import ActorSurface.Proofs.Publish.Atomicity
import ActorSurface.Proofs.Publish.Replacement
import ActorSurface.Proofs.Engine.Mapping
import ActorSurface.Proofs.Actor.Signature
import ActorSurface.Proofs.Command.Rendering
import ActorSurface.Proofs.Diagnostic.Reports
import ActorSurface.Proofs.Diagnostic.Reading
import ActorSurface.Proofs.Token.LineNumbers
import ActorSurface.Proofs.Trap
import ActorSurface.Proofs.Token.Bumps
import ActorSurface.Proofs.Token.Supply
import ActorSurface.Proofs.Actor.Checked
import ActorSurface.Proofs.Actor.Consistency
import ActorSurface.Proofs.Actor.Loop
import ActorSurface.Proofs.Actor.Turns
import ActorSurface.Proofs.Engine.Safety
