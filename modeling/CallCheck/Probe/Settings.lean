import CallCheck.Call.Limits
import CallCheck.Call.Resolve
import CallCheck.Probe.Collection
import CallCheck.Probe.Metadata
import CallCheck.Probe.Options
import CallCheck.Session.Transport

/-!
# Settings

What a run does, worked out from its options. Options that contradict each other, or name files
that are not there, are refused; the checks are made in a fixed order and the first that fails
counts.
-/

namespace CallCheck.Probe

open Session (Security Tls Transport)

/-- What is called. -/
inductive Source
  /-- One entry, given by options. -/
  | single (entry : Entry)
  /-- The entries of a file. -/
  | collection (path : String)
  deriving Repr

/-- What a run does. -/
structure Settings where
  /-- The address of the server. -/
  host : String
  /-- Where the schema comes from, if not from the server. -/
  schema : Option Schema.Origin
  /-- Where sources are imported from. -/
  importPaths : List String
  /-- How connections are opened. -/
  transport : Transport
  /-- What bounds the streams. -/
  limits : Call.Limits
  /-- How long a call may take, in milliseconds. -/
  timeout : Option Nat
  /-- Keys and values to send along with every call. -/
  metadata : List (String × String)
  /-- What is called. -/
  source : Source
  deriving Repr

namespace Settings

/-- What is called. -/
def readSource (o : Options) : Except Failure Source :=
  match o.call, o.collection with
  | some call, none =>
    let entry (data : Option Json) : Source :=
      .single { name := call, call, data, expect := o.expects, event := o.events }
    match o.data with
    | none => .ok (entry none)
    | some text =>
      match Json.parse? text with
      | some data => .ok (entry (some data))
      | none => .error ⟨["--data is not valid JSON"], .json⟩
  | none, some path =>
    if o.data.isSome || !o.expects.isEmpty || !o.events.isEmpty then
      .error (.note "--data, --expect and --event apply to --call only")
    else .ok (.collection path)
  | some _, some _ => .error (.note "--call and --collection are mutually exclusive")
  | none, none => .error (.note "one of --call or --collection is required")

/-- Where the schema comes from. -/
def readSchema (o : Options) : Except Failure (Option Schema.Origin) :=
  match o.protos.isEmpty, o.protoset with
  | false, some _ => .error (.note "--proto and --protoset are mutually exclusive")
  | false, none => .ok (some (.sources o.protos o.importPaths))
  | true, some path => .ok (some (.descriptorSet path))
  | true, none => .ok none

/-- The bytes of a certificate or a key. -/
def readPem (files : Files) (path : String) : Except Failure (List UInt8) :=
  match files.bytes? path with
  | some bytes => .ok bytes
  | none => .error ⟨[s!"failed to read {path}"], .file⟩

/-- The certificate and the key of the client. -/
def readIdentity (files : Files) (o : Options) :
    Except Failure (Option (List UInt8 × List UInt8)) :=
  match o.cert, o.key with
  | some cert, some key => do return some (← readPem files cert, ← readPem files key)
  | none, none => .ok none
  | _, _ => .error (.note "--cert and --key must be given together")

/-- The certificate that vouches for the server. -/
def readAuthority (files : Files) (o : Options) : Except Failure (Option (List UInt8)) :=
  match o.caCert with
  | some path => (readPem files path).map some
  | none => .ok none

/-- Whether connections are secured. A certificate implies it. -/
def readSecurity (files : Files) (o : Options) : Except Failure Security := do
  let identity ← readIdentity files o
  let authority ← readAuthority files o
  if o.tls || authority.isSome || identity.isSome then
    return .tls { authority, identity, serverName := o.serverName }
  else if o.serverName.isSome then throw (.note "--server-name requires TLS")
  else return .plaintext

/-- A time that is given and not zero. -/
def positive (time : Option Nat) : Option Nat := time.filter (0 < ·)

/-- The settings of options. -/
def ofOptions (files : Files) (o : Options) : Except Failure Settings := do
  let source ← readSource o
  if (Text.trimChars o.host.toList).isEmpty then throw (.note "RPCPROBE_HOST must not be empty")
  if o.dialTimeout = 0 then throw (.note "RPCPROBE_DIAL_TIMEOUT_MS must be greater than 0")
  let schema ← readSchema o
  let security ← readSecurity files o
  let metadata ← o.metadata.mapM parseMetadata
  return {
    host := o.host
    schema
    importPaths := o.importPaths
    transport := {
      security
      authority := o.authority
      dialTimeout := o.dialTimeout
      keepalive := positive o.keepalive }
    limits := {
      interval := o.streamInterval
      duration := positive o.streamDuration
      messages := o.streamCount }
    timeout := positive o.timeout
    metadata
    source }

/-- The entries to call. -/
def entries (files : Files) (s : Settings) : Except Failure (List Entry) :=
  match s.source with
  | .single entry => .ok [entry]
  | .collection path => Collection.load files path

/-- Where the schema of an entry comes from: its own file, or else that of the run. -/
def schemaFor (s : Settings) (e : Entry) : Schema.Origin :=
  match e.proto with
  | some path => .sources [path] s.importPaths
  | none => s.schema.getD .reflection

/-- The paths that a run looks at, as far as the files at hand tell. -/
def paths (files : Files) (s : Settings) : List String :=
  let entries := (s.entries files).toOption.getD []
  let collection := match s.source with
    | .single _ => []
    | .collection path => [path]
  collection ++ entries.flatMap fun e ↦ (s.schemaFor e).paths files

end Settings

/-- The certificates and keys that options name. -/
def Options.certificates (o : Options) : List String :=
  o.caCert.toList ++ o.cert.toList ++ o.key.toList

end CallCheck.Probe
