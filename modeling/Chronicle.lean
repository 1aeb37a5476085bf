import Chronicle.Binary
import Chronicle.Dict.Lemmas
import Chronicle.Editor
import Chronicle.Proofs.History
import Chronicle.Proofs.Pending
import Chronicle.Run
import Chronicle.Settings
import Chronicle.Proofs.Judgement
import Chronicle.Proofs.Passing
import Chronicle.Proofs.Repeats
import Chronicle.Proofs.Application
import Chronicle.Proofs.Acceptance
import Chronicle.Proofs.Explanation
import Chronicle.Proofs.Lingering
import Chronicle.Proofs.Disputes
import Chronicle.Proofs.Turns
import Chronicle.Proofs.Telling
import Chronicle.Proofs.Notices
import Chronicle.Proofs.Refreshing
import Chronicle.Proofs.Retraction
import Chronicle.Proofs.Settlement
import Chronicle.Proofs.Resubmission
import Chronicle.Proofs.Membership
import Chronicle.Proofs.Past
import Chronicle.Proofs.Pushing
import Chronicle.Proofs.Gains
import Chronicle.Proofs.References
import Chronicle.Proofs.Indifference
import Chronicle.Proofs.Completion
import Chronicle.Proofs.Backstops
import Chronicle.Proofs.Stranding
import Chronicle.Proofs.Verbatim
import Chronicle.Proofs.Statuses
import Chronicle.Proofs.Drawing
import Chronicle.Proofs.Filling
import Chronicle.Proofs.Rereading
import Chronicle.Proofs.Rejections
import Chronicle.Proofs.Anonymous
import Chronicle.Proofs.Storing
import Chronicle.Proofs.Repushing
import Chronicle.Proofs.Accounts
import Chronicle.Proofs.Decisions
import Chronicle.Proofs.Retries
import Chronicle.Proofs.Msgpack.Heads
import Chronicle.Proofs.Msgpack.Items
import Chronicle.Proofs.Msgpack.Snapshots
import Chronicle.Proofs.Content.Delta
import Chronicle.Proofs.Naming
import Chronicle.Proofs.Commuting
import Chronicle.Proofs.Returning
import Chronicle.Proofs.Flat.Writing
import Chronicle.Proofs.Recommitting
import Chronicle.Proofs.Registration
import Chronicle.Proofs.Tabling
