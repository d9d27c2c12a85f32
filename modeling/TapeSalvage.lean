import TapeSalvage.Dispatch.Emission
import TapeSalvage.Main
import TapeSalvage.Proofs.Recovery.Demodulation
import TapeSalvage.Proofs.Recovery.Taping
import TapeSalvage.Proofs.Scan.Shard
import TapeSalvage.Proofs.Scan.Chain
import TapeSalvage.Proofs.Block.Writing
import TapeSalvage.Proofs.Recovery.Scanning
import TapeSalvage.Proofs.Listing.Checked
import TapeSalvage.Proofs.Recovery.Faults
import TapeSalvage.Proofs.Scan.Checked
import TapeSalvage.Proofs.Recovery.Fallback
import TapeSalvage.Proofs.Block.Counting
import TapeSalvage.Proofs.Fault.Steps
import TapeSalvage.Proofs.Header.Location
import TapeSalvage.Proofs.Program.Assembling
import TapeSalvage.Proofs.Recovery.Stages
import TapeSalvage.Proofs.Recovery.Account
import TapeSalvage.Proofs.Scan.Damage
import TapeSalvage.Proofs.Command.Files
import TapeSalvage.Proofs.Command.Steps
import TapeSalvage.Proofs.Command.Relisting
import TapeSalvage.Proofs.Pulse.Settled
import TapeSalvage.Proofs.Command.Outputs
import TapeSalvage.Proofs.Frame.Places
import TapeSalvage.Proofs.Recovery.Voices
import TapeSalvage.Proofs.Command.ToneTape
import TapeSalvage.Proofs.Text.Squeezing
import TapeSalvage.Proofs.Strings.Runs
import TapeSalvage.Proofs.Strings.Reports
import TapeSalvage.Proofs.Text.Ascii
import TapeSalvage.Proofs.Command.Regrouping
import TapeSalvage.Proofs.Block.Covering
import TapeSalvage.Proofs.Capture.Grammar
import TapeSalvage.Proofs.Scan.Winner
import TapeSalvage.Proofs.Scan.Bounds
import TapeSalvage.Proofs.Scan.Surroundings
import TapeSalvage.Proofs.Listing.Grammar
import TapeSalvage.Proofs.Listing.Damage
import TapeSalvage.Proofs.Listing.Linking
import TapeSalvage.Proofs.Listing.Rows
import TapeSalvage.Proofs.Pulse.Order
import TapeSalvage.Proofs.Pulse.Proportions
import TapeSalvage.Proofs.Header.Scoring
import TapeSalvage.Proofs.Pulse.Distortion
import TapeSalvage.Proofs.Pulse.Intervals
import TapeSalvage.Proofs.Block.Disturbance
import TapeSalvage.Proofs.Strings.Groups
import TapeSalvage.Proofs.Strings.Redumping
import TapeSalvage.Proofs.Dispatch.Delivery
import TapeSalvage.Proofs.Dispatch.Transcript
import TapeSalvage.Proofs.Listing.Progress
