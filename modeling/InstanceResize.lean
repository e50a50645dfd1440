import InstanceResize.Main
import InstanceResize.Proofs.Account.Answer
import InstanceResize.Proofs.Account.Company
import InstanceResize.Proofs.Account.Effect
import InstanceResize.Proofs.Account.Passage
import InstanceResize.Proofs.Account.Apart
import InstanceResize.Proofs.Account.Lifecycle
import InstanceResize.Proofs.Account.Allocation
import InstanceResize.Proofs.Run.Gate
import InstanceResize.Proofs.Run.Failure
import InstanceResize.Proofs.Run.Cancellation
import InstanceResize.Proofs.Run.Stream
import InstanceResize.Proofs.Run.Agreement
import InstanceResize.Proofs.Run.Journey
import InstanceResize.Proofs.Run.Cycle
import InstanceResize.Proofs.Run.Timetable
import InstanceResize.Proofs.Run.Declared
import InstanceResize.Proofs.Run.Decisive
import InstanceResize.Proofs.Progress.Listening
import InstanceResize.Proofs.Together.Restart
import InstanceResize.Proofs.Together.Apart
import InstanceResize.Proofs.Together.Exclusive
import InstanceResize.Proofs.Relay.Traffic
import InstanceResize.Proofs.Relay.Conveyance
import InstanceResize.Proofs.Relay.Greeting
import InstanceResize.Proofs.Relay.Faithful
import InstanceResize.Proofs.Relay.Parted
import InstanceResize.Proofs.Relay.Naming
import InstanceResize.Proofs.Json.Records
import InstanceResize.Proofs.Server.ConfigFile
import InstanceResize.Proofs.Account.Duration
import InstanceResize.Proofs.Account.Outlook
import InstanceResize.Proofs.Account.Listing
import InstanceResize.Proofs.Run.GivingUp
import InstanceResize.Proofs.Server.Listing
import InstanceResize.Proofs.Document.Meaning
import InstanceResize.Proofs.Toml.Unambiguous
import InstanceResize.Proofs.Run.Configured
import InstanceResize.Proofs.Server.Overlay
import InstanceResize.Proofs.Run.Recoded
import InstanceResize.Proofs.Run.Unlisted
import InstanceResize.Proofs.Run.Cadence
import InstanceResize.Proofs.Account.Catalogue
import InstanceResize.Proofs.Server.Offering
