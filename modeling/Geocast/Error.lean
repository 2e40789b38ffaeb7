import Geocast.Packet.Error

/-!
# Why a router refuses

Every refusal of a router is one of the causes below, with its text in `message`.
-/

namespace Geocast

/-- Why a packet was not taken, a request not served or a transmission not completed. -/
inductive RoutingError
  | malformedPacket (cause : PacketError)
  | duplicatePacket (source : Address) (sequence : SequenceNumber)
  | hopLimitExhausted
  | ownPacket
  | unsupportedSecurity
  | senderInsideArea
  | lookupTimeout (target : Address)
  | notRunning
  | shuttingDown
  | loggingUnavailable
deriving DecidableEq, Repr, Inhabited

/-- The text of a routing error. -/
def RoutingError.message : RoutingError → String
  | malformedPacket e => "Malformed packet: " ++ e.message
  | duplicatePacket source n => "Duplicate packet " ++ n.text ++ " from " ++ source.text
  | hopLimitExhausted => "Hop limit exhausted"
  | ownPacket => "Packet originated by this router"
  | unsupportedSecurity => "Secured packets are not supported"
  | senderInsideArea => "Sender already inside destination area"
  | lookupTimeout target => "Location service timed out for " ++ target.text
  | notRunning => "Router is not running"
  | shuttingDown => "Router is shutting down"
  | loggingUnavailable => "Logging error: Logging not initialised"

end Geocast
