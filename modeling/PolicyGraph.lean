import PolicyGraph.Main
import PolicyGraph.Proofs.Loops
import PolicyGraph.Proofs.Faithful
import PolicyGraph.Proofs.Readers
import PolicyGraph.Proofs.Places
import PolicyGraph.Proofs.RuleFile
import PolicyGraph.Proofs.Deployment
import PolicyGraph.Proofs.RoundTrip
import PolicyGraph.Proofs.Appending
import PolicyGraph.Proofs.Lookups
import PolicyGraph.Proofs.Lossless
import PolicyGraph.Proofs.Renaming
import PolicyGraph.Proofs.Accounting
import PolicyGraph.Proofs.Degrees
import PolicyGraph.Proofs.Rejections
import PolicyGraph.Proofs.Statistics
import PolicyGraph.Proofs.Growth
import PolicyGraph.Proofs.Clashes
import PolicyGraph.Proofs.Segment
import PolicyGraph.Proofs.Transcript
import PolicyGraph.Proofs.Registrations
import PolicyGraph.Proofs.Constraints
import PolicyGraph.Proofs.SettingsFile
import PolicyGraph.Proofs.Grammar
import PolicyGraph.Proofs.Arguments
import PolicyGraph.Proofs.Overrides
