import Cutscene.Main
import Cutscene.Proofs.Failure
import Cutscene.Proofs.Refusal
import Cutscene.World.Stage
import Cutscene.Proofs.Suspension
import Cutscene.Proofs.Complaints
import Cutscene.Proofs.Slicing
import Cutscene.Proofs.Shelf
import Cutscene.Proofs.Checking
import Cutscene.Proofs.Ownership
import Cutscene.Proofs.Duration
import Cutscene.Proofs.Directing
import Cutscene.Proofs.Routing
import Cutscene.Proofs.Reports
import Cutscene.Proofs.Ledger
import Cutscene.Proofs.Notices
import Cutscene.Proofs.Pausing
import Cutscene.Proofs.Overtaxing
import Cutscene.Proofs.Breakdowns
import Cutscene.Proofs.Frames
import Cutscene.Proofs.Trimming
import Cutscene.Proofs.Lowering
import Cutscene.Proofs.NormalPaths
import Cutscene.Proofs.LookingUp
import Cutscene.Proofs.Candidates
import Cutscene.Proofs.Rereading
import Cutscene.Proofs.Coverage
import Cutscene.Proofs.Entry
import Cutscene.Proofs.Clearing
import Cutscene.Proofs.Finding
import Cutscene.Proofs.Avoiding
import Cutscene.Proofs.Steering
import Cutscene.Proofs.Inlining
import Cutscene.Proofs.Alongside
import Cutscene.Proofs.Transparency
import Cutscene.Proofs.Joining
import Cutscene.Proofs.Writing
import Cutscene.Proofs.Passages
import Cutscene.Proofs.Substituting
import Cutscene.Proofs.Numerals
import Cutscene.Proofs.Comparing
import Cutscene.Proofs.Trailing
import Cutscene.Proofs.Remembering
import Cutscene.Proofs.Drawing
import Cutscene.Proofs.Sleeping
import Cutscene.Proofs.Records
import Cutscene.Proofs.Stock
import Cutscene.Proofs.Talking
import Cutscene.Proofs.Parking
import Cutscene.Proofs.Parentheses
import Cutscene.Proofs.Assigning
import Cutscene.Proofs.Locating
import Cutscene.Proofs.Hiding
import Cutscene.Proofs.Unobserved
import Cutscene.Proofs.Tracing
import Cutscene.Proofs.Labelling
