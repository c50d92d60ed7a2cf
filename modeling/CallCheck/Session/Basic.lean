import CallCheck.Reflection.Client
import CallCheck.Session.Connection

/-!
# Sessions

A session is a method with an open connection over which it can be called.

## Order of the steps

The target is read first. A schema in files is loaded before the host is dialled, so a broken
schema never touches the network; a schema by reflection is asked for over the connection. The
method is looked up last, when there is a connection in either case.
-/

namespace CallCheck.Session

open Call (Error Limits Target)
open Schema (Method Origin Pool)

/-- Everything that is needed to find a method and to call it. -/
structure Config where
  /-- The host. -/
  host : String
  /-- The method. -/
  target : String
  /-- Where the schema comes from. -/
  schema : Origin
  /-- How the connection is opened. -/
  transport : Transport := {}
  /-- What bounds the streams of a call. -/
  limits : Limits := {}
  /-- How long a call may take, in milliseconds. -/
  timeout : Option Nat := none
  deriving Repr

end CallCheck.Session

namespace CallCheck

/-- A method with a connection over which it can be called. -/
structure Session where
  /-- What it was opened with. -/
  config : Session.Config
  /-- The connection. -/
  connection : Session.Connection
  /-- The schema. -/
  pool : Schema.Pool
  /-- The method. -/
  method : Schema.Method

namespace Session

open Call (Error Target)
open Schema (Origin Pool)

/-- The connection and the schema of a configuration. -/
def prepare (network : Network) (files : Files) (config : Config) (t : Target) :
    Except Error (Connection × Pool) :=
  match config.schema with
  | .reflection => do
    let connection ← Connection.establish network config.host config.transport
    let pool ← ((Reflection.loadPool connection.peer.reflection t).run.run []).1
    return (connection, pool)
  | schema => do
    let pool ← schema.load files
    let connection ← Connection.establish network config.host config.transport
    return (connection, pool)

/-- Opens a session. -/
def connect (network : Network) (files : Files) (config : Config) : Except Error Session := do
  let t ← Target.parse config.target
  let (connection, pool) ← prepare network files config t
  let method ← pool.lookup t
  return { config, connection, pool, method }

end Session

end CallCheck
