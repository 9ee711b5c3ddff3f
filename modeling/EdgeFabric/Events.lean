/-
Events (`internal/events`), as they are published: what happened, how bad it is, to what,
and details as keys and values. A publisher without a bus publishes nothing; the publishers
here have one.
-/
import EdgeFabric.Domain

namespace EdgeFabric

inductive EventType where
  | overlayPeerUnreachable | overlayPeerRecovered
  | bgpSessionDown | bgpSessionEstablished
  | routeHealthCheckFailed | routeHealthCheckRecovered
  deriving DecidableEq, Repr

inductive Severity where
  | info | warning | critical
  deriving DecidableEq, Repr

structure Event where
  type : EventType
  severity : Severity
  resource : String
  details : List (String × String)
  deriving DecidableEq, Repr

end EdgeFabric
