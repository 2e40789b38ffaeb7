import Geocast.Number.Text
import Geocast.Geometry.Sphere
import Geocast.Router.Run
import Geocast.TaskSet
import Geocast.Config.Document
import Geocast.Proofs.Router.Duplicates
import Geocast.Proofs.Router.Completion
import Geocast.Proofs.Router.Expiry
import Geocast.Proofs.Router.Coherence
import Geocast.Proofs.Router.Emitted
import Geocast.Proofs.Router.Memory
import Geocast.Proofs.Router.Ledger
import Geocast.Proofs.Router.Overhearing
import Geocast.Proofs.Router.Backlog
import Geocast.Proofs.Router.Schedule
import Geocast.Proofs.Router.Deadline
import Geocast.Proofs.Router.Conclusion
import Geocast.Proofs.Router.Fate
import Geocast.Proofs.Router.Background
import Geocast.Proofs.Router.Shutdown
import Geocast.Proofs.Packet.Canonical
import Geocast.Proofs.Packet.Grammar
import Geocast.Proofs.Packet.Movement
import Geocast.Proofs.Network.Descent
import Geocast.Proofs.Network.Signal
import Geocast.Proofs.Network.Host
import Geocast.Proofs.Network.Seeker
import Geocast.Proofs.Network.Start
import Geocast.Proofs.Network.Exchange
import Geocast.Proofs.Router.Copies
import Geocast.Proofs.Router.Areas
import Geocast.Proofs.Router.Stations
import Geocast.Proofs.Router.Filed
import Geocast.Proofs.Router.Refusal
import Geocast.Proofs.Router.Logged
import Geocast.Proofs.Router.Counters
import Geocast.Proofs.Router.Numbering
import Geocast.Proofs.Location.Integrity
import Geocast.Proofs.Location.Sweep
import Geocast.Proofs.Location.Turn
import Geocast.Proofs.Location.Freshest
import Geocast.Proofs.Forwarding.Greedy
import Geocast.Proofs.Router.Isolation
import Geocast.Proofs.Router.Parking
import Geocast.Proofs.Router.Rerouting
import Geocast.Proofs.Router.Reach
import Geocast.Proofs.Queue.Lanes
import Geocast.Proofs.Queue.Timeline
import Geocast.Proofs.Location.Sightings
import Geocast.Proofs.Location.Classification
import Geocast.Proofs.Number.Rounding
import Geocast.Proofs.Forwarding.Delay
import Geocast.Proofs.Geometry.Extent
import Geocast.Proofs.Location.Views
