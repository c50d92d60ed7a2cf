import CallCheck.Session.Address
import CallCheck.Session.Connectivity
import CallCheck.Session.Network
import CallCheck.Session.Pem
import CallCheck.Session.ServerName
import CallCheck.Text.Basic

/-!
# Connections

A connection is opened once the options make sense: the host, the authority and the certificates
are looked at in this order, and only then the host is dialled.
-/

namespace CallCheck.Session

open Call (ConfigFault Error)

/-- An open connection. -/
structure Connection where
  /-- The host, as it was given. -/
  host : String
  /-- What there is at the other end. -/
  peer : Peer
  /-- The largest size of a message sent. -/
  maxSend : Nat
  /-- The largest size of a message received. -/
  maxReceive : Nat
  /-- What is known of its sockets. -/
  connectivity : Connectivity

/-- The scheme of addresses without one. -/
def Security.scheme : Security → String
  | .plaintext => "http"
  | .tls _ => "https"

/-- What makes no sense about the certificates, given the host of the address. -/
def Tls.fault? (t : Tls) (host : Option String) : Option String :=
  let name := t.serverName.or host
  let sound := t.authority.all Pem.hasCertificates &&
    (t.identity.all fun (cert, key) ↦ Pem.hasChain cert && Pem.hasKey key) &&
    name.any isServerName
  if sound then none else some "transport error"

namespace Transport

/-- The address of a host. -/
def address (t : Transport) (host : String) : String :=
  if Text.contains host "://" then host else s!"{t.security.scheme}://{host}"

/-- What makes no sense about the options, for a host. -/
def fault? (t : Transport) (host : String) : Option ConfigFault :=
  match Address.ofText (t.address host) with
  | .error _ => some (.host host "invalid URI")
  | .ok address =>
    match t.authority.map fun a ↦ (a, Address.ofText s!"{t.security.scheme}://{a}") with
    | some (a, .error fault) => some (.authority a fault.message)
    | _ =>
      match t.security with
      | .plaintext => none
      | .tls certificates => (certificates.fault? address.host).map .tls

end Transport

namespace Connection

/-- What comes of dialling a host. -/
def dial (network : Network) (host : String) (t : Transport) : Except Error Connection :=
  match network host t with
  | .connected peer =>
    .ok {
      host
      peer
      maxSend := t.maxSend
      maxReceive := t.maxReceive
      connectivity := .after [.connecting, .opened] }
  | .failed reason => .error (.unreachable host s!"transport error: {reason}: {reason}")
  | .timedOut => .error (.dialTimeout host t.dialTimeout)

/-- A connection to a host. -/
def establish (network : Network) (host : String) (t : Transport) : Except Error Connection :=
  match t.fault? host with
  | some fault => .error (.invalidConfig fault)
  | none => dial network host t

/-- The states in which a connection is found after it has been opened and after it has been
closed. -/
def states (c : Connection) : ConnectionState × ConnectionState :=
  let closed := [.close, .settle, .dropped].foldl Connectivity.step c.connectivity
  (c.connectivity.state, closed.state)

end Connection

end CallCheck.Session
