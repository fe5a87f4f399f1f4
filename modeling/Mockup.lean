import Mockup.Config.Connection
import Mockup.Files.Listing
import Mockup.Main
import Mockup.Page.Snapshot
import Mockup.Proofs.Generation.Valid
import Mockup.Proofs.Payload.Idempotent
import Mockup.Proofs.Store.Shown
import Mockup.Proofs.Bundle.Html
import Mockup.Proofs.Bundle.Tags
import Mockup.Proofs.Bundle.Outline
import Mockup.Proofs.Json.Alike
import Mockup.Proofs.Json.Spelling
import Mockup.Proofs.Json.Lexed
import Mockup.Proofs.Bundle.Embedded
import Mockup.Proofs.Json.Numeral
import Mockup.Proofs.Json.Spaced
import Mockup.Proofs.Json.Recovers
import Mockup.Proofs.Spec.Recovers
import Mockup.Proofs.Json.Decoded
import Mockup.Proofs.Spec.Decoded
import Mockup.Proofs.Json.Equal
import Mockup.Proofs.Spec.Equal
import Mockup.Proofs.Store.Legible
import Mockup.Proofs.Store.Reuse
import Mockup.Proofs.Store.Stable
import Mockup.Proofs.Payload.Gaps
import Mockup.Proofs.Page.Drawn
import Mockup.Proofs.Page.Element
import Mockup.Proofs.Page.Parts
import Mockup.Proofs.Page.Change
import Mockup.Proofs.Spec.Complete
import Mockup.Proofs.Spec.Repaired
import Mockup.Proofs.Text.LowerCase
import Mockup.Proofs.Synthesis.Canonical
import Mockup.Proofs.Generation.Mark
import Mockup.Proofs.Json.Takes
import Mockup.Proofs.Spec.Takes
import Mockup.Proofs.Page.Deed
import Mockup.Proofs.Page.Current
import Mockup.Proofs.Page.Effect
import Mockup.Proofs.Page.Session
import Mockup.Proofs.Page.Safe
import Mockup.Proofs.Bundle.Sections
import Mockup.Proofs.Page.Blocks
import Mockup.Proofs.Page.Agreement
import Mockup.Proofs.Bundle.Carried
import Mockup.Proofs.Log.Journal
import Mockup.Proofs.Generation.Live
import Mockup.Proofs.Generation.Logged
import Mockup.Proofs.Files.Agree
import Mockup.Proofs.Files.Way
import Mockup.Proofs.Store.Visited
import Mockup.Proofs.Store.Confined
import Mockup.Proofs.Store.View
import Mockup.Proofs.Store.Isolated
import Mockup.Proofs.Store.Refused
import Mockup.Proofs.CommandLine.Unlogged
import Mockup.Proofs.Json.Passed
import Mockup.Proofs.Chat.Fence
import Mockup.Proofs.Json.Spelled
import Mockup.Proofs.Chat.Reply
import Mockup.Proofs.Payload.Sources
import Mockup.Proofs.Payload.Components
import Mockup.Proofs.Payload.Spelling
import Mockup.Proofs.Payload.Texts
import Mockup.Proofs.Files.Inside
import Mockup.Proofs.Store.Present
import Mockup.Proofs.Text.Choice
import Mockup.Proofs.Payload.Unread
import Mockup.Proofs.Generation.Blank
import Mockup.Proofs.Config.Environment
import Mockup.Proofs.Config.Candidates
import Mockup.Proofs.Store.Deletion
import Mockup.Proofs.Files.Made
import Mockup.Proofs.Log.Event
import Mockup.Proofs.Log.Calls
import Mockup.Proofs.Bundle.Runs
import Mockup.Proofs.Text.Ends
import Mockup.Proofs.Payload.Bullets
import Mockup.Proofs.Page.Wiring
import Mockup.Proofs.Page.Drawers
import Mockup.Proofs.Page.Kept
import Mockup.Proofs.Page.Submitted
import Mockup.Proofs.Payload.ItemLines
