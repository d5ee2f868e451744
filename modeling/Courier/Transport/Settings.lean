import Courier.Text.Quoted
import Courier.Time.Duration
/-!
Settings of the network transport.
-/

namespace Courier.Transport

structure Settings where
  tls : Bool := false
  http2Only : Bool := false
  idleTimeout : Option Duration := some (.ofSeconds 90)
  mostIdle : Nat := 32
  deriving DecidableEq, Repr

namespace Settings

def describe (s : Settings) : String :=
  Text.described "HyperTransportBuilder"
    [("tls_config", toString s.tls), ("http2_only", toString s.http2Only),
     ("pool_idle_timeout", Text.optional (s.idleTimeout.map Duration.render)),
     ("pool_max_idle_per_host", s.mostIdle.repr)] false

/-- The transport that these settings give. -/
def describeBuilt (s : Settings) : String :=
  Text.described "HyperTransport" [("http2_only", toString s.http2Only)] true

end Settings

end Courier.Transport
