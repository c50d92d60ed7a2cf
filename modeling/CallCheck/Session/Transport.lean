import CallCheck.Numeric.Width

/-!
# Transport options

How a connection is opened.
-/

namespace CallCheck.Session

/-- What a secured connection is checked with. -/
structure Tls where
  /-- The certificate that vouches for the server, if it is not one of the system's. -/
  authority : Option (List UInt8) := none
  /-- The certificate and the key that the client shows. -/
  identity : Option (List UInt8 × List UInt8) := none
  /-- The name that the certificate of the server must have. -/
  serverName : Option String := none
  deriving DecidableEq, Repr

/-- Whether a connection is secured. -/
inductive Security
  | plaintext
  | tls (t : Tls)
  deriving DecidableEq, Repr

/-- The largest size of a message that is not limited. -/
def unlimited : Nat := Numeric.maxSigned 32

/-- How a connection is opened, times in milliseconds. -/
structure Transport where
  /-- Whether it is secured. -/
  security : Security := .plaintext
  /-- The authority that requests name, if it is not the host. -/
  authority : Option String := none
  /-- How long opening may take. -/
  dialTimeout : Nat := 10000
  /-- How often the connection is checked. -/
  keepalive : Option Nat := none
  /-- The largest size of a message sent. -/
  maxSend : Nat := unlimited
  /-- The largest size of a message received. -/
  maxReceive : Nat := unlimited
  deriving DecidableEq, Repr

end CallCheck.Session
