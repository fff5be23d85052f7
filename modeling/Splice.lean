import Splice.Address.Reader
import Splice.Config.Reader
import Splice.EventLoop.Settling
import Splice.EventLoop.Starting
import Splice.Joined
import Splice.Scenario.Consumer
import Splice.Scenario.Linked
import Splice.Scenario.Scripted
import Splice.Scenario.Shout
import Splice.Scenario.Tally
import Splice.Proofs.Bridge.Deeds
import Splice.Proofs.Bridge.Reactions
import Splice.Proofs.Bridge.Lifecycle
import Splice.Proofs.Bridge.Teardown
import Splice.Proofs.Bridge.Sending
import Splice.Proofs.Bridge.Behaving
import Splice.Proofs.Bridge.Delivery
import Splice.Proofs.Bridge.Waiting
import Splice.Proofs.Bridge.HalfClosing
import Splice.Proofs.Bridge.Parting
import Splice.Proofs.Bridge.Course
import Splice.Proofs.Bridge.EndOfSending
import Splice.Proofs.Bridge.EndOfOutput
import Splice.Proofs.Bridge.WindingDown
import Splice.Proofs.Bridge.Backpressure
import Splice.Proofs.Bridge.Collecting
import Splice.Proofs.Joined.Wire
import Splice.Proofs.Joined.Ends
import Splice.Proofs.Joined.Following
import Splice.Proofs.Joined.Delivery
import Splice.Proofs.EventLoop.Running
import Splice.Proofs.EventLoop.Connecting
import Splice.Proofs.EventLoop.Backpressure
import Splice.Proofs.EventLoop.Tasks
import Splice.Proofs.EventLoop.Handover
import Splice.Proofs.EventLoop.Serving
import Splice.Proofs.EventLoop.Waiting
import Splice.Proofs.Bridge.Notifying
import Splice.Proofs.Bridge.Links
import Splice.Proofs.Bridge.Independence
import Splice.Proofs.Bridge.Chunking
import Splice.Proofs.Bridge.FailedSends
import Splice.Proofs.Buffered.Reporting
import Splice.Proofs.Json.Strings
import Splice.Proofs.Config.Reading
