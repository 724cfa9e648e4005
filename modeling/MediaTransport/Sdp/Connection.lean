import MediaTransport.Address.Ip

/-!
# Connection lines

The value of a connection line for a single address.
-/

namespace MediaTransport.Sdp

/-- The connection for an address: its family and its text. -/
def connectionFor : Address.Ip → String
  | .v4 ip => "IN IP4 " ++ ip.render
  | .v6 ip => "IN IP6 " ++ ip.render

end MediaTransport.Sdp
