import CallCheck.Numeric.Numeral
import CallCheck.Numeric.Width
import CallCheck.Probe.Usage

/-!
# Options

The options of the program, from its arguments and from variables of the environment. An argument
names an option and a value, in one word or in two; a value that looks like an option must be in
one word with it. What the arguments do not give is taken from the variables, and then from the
defaults.
-/

namespace CallCheck.Probe

/-- The options of a run, as they are given. Times are in milliseconds. -/
structure Options where
  /-- The address of the server. -/
  host : String := "127.0.0.1:50051"
  /-- The method to call. -/
  call : Option String := none
  /-- The file of entries to call instead. -/
  collection : Option String := none
  /-- Sources of the schema. -/
  protos : List String := []
  /-- Where sources are imported from. -/
  importPaths : List String := []
  /-- A descriptor set as the schema. -/
  protoset : Option String := none
  /-- What to send. -/
  data : Option String := none
  /-- Pairs of keys and values to send along. -/
  metadata : List String := []
  /-- Expressions that must not be false. -/
  expects : List String := []
  /-- Expressions to evaluate at the end. -/
  events : List String := []
  /-- Whether the connection is secured. -/
  tls : Bool := false
  /-- The certificate that vouches for the server. -/
  caCert : Option String := none
  /-- The certificate of the client. -/
  cert : Option String := none
  /-- The key of the client. -/
  key : Option String := none
  /-- The name that the certificate of the server must have. -/
  serverName : Option String := none
  /-- The authority that requests name. -/
  authority : Option String := none
  /-- How long a call may take. -/
  timeout : Option Nat := none
  /-- How long opening a connection may take. -/
  dialTimeout : Nat := 10000
  /-- How often a connection is checked. -/
  keepalive : Option Nat := none
  /-- The pause between messages. -/
  streamInterval : Option Nat := none
  /-- How long a stream may take. -/
  streamDuration : Option Nat := none
  /-- How many messages of a stream are enough. -/
  streamCount : Option Nat := none
  deriving DecidableEq, Repr

/-! ## Forms -/

/-- What values an option has. -/
inductive ValueForm
  /-- None: it is there or not. -/
  | flag
  /-- Any text. -/
  | text
  /-- A path, which is not empty. -/
  | path
  /-- A number of 64 bits. -/
  | number
  deriving DecidableEq, Repr

/-- How an option is given. -/
structure OptionForm where
  /-- Its long name, which tells it from others. -/
  long : String
  /-- Its values. -/
  value : ValueForm := .text
  /-- Its short name. -/
  short : Option Char := none
  /-- The variable that stands in for it. -/
  fallback : Option String := none
  /-- Whether it can be given more than once. -/
  many : Bool := false
  /-- Whether a comma ends a value. -/
  commas : Bool := false
  deriving DecidableEq, Repr

/-- The options in the order in which variables are looked at. -/
def optionForms : List OptionForm :=
  [{ long := "host", fallback := "RPCPROBE_HOST" },
    { long := "call", short := 'c' },
    { long := "collection", value := .path },
    { long := "proto", value := .path, fallback := "RPCPROBE_PROTO", many := true, commas := true },
    { long := "import-path", value := .path, fallback := "RPCPROBE_IMPORT_PATH", many := true,
      commas := true },
    { long := "protoset", value := .path, fallback := "RPCPROBE_PROTOSET" },
    { long := "data", short := 'd' },
    { long := "metadata", short := 'm', many := true },
    { long := "expect", many := true },
    { long := "event", many := true },
    { long := "tls", value := .flag, fallback := "RPCPROBE_TLS" },
    { long := "ca-cert", value := .path, fallback := "RPCPROBE_CA_CERT" },
    { long := "cert", value := .path, fallback := "RPCPROBE_CERT" },
    { long := "key", value := .path, fallback := "RPCPROBE_KEY" },
    { long := "server-name", fallback := "RPCPROBE_SERVER_NAME" },
    { long := "authority", fallback := "RPCPROBE_AUTHORITY" },
    { long := "timeout-ms", value := .number, fallback := "RPCPROBE_TIMEOUT_MS" },
    { long := "dial-timeout-ms", value := .number, fallback := "RPCPROBE_DIAL_TIMEOUT_MS" },
    { long := "keepalive-ms", value := .number, fallback := "RPCPROBE_KEEPALIVE_MS" },
    { long := "stream-interval-ms", value := .number, fallback := "RPCPROBE_STREAM_INTERVAL_MS" },
    { long := "stream-duration-ms", value := .number, fallback := "RPCPROBE_STREAM_DURATION_MS" },
    { long := "stream-count", value := .number, fallback := "RPCPROBE_STREAM_COUNT" }]

/-- The number of 64 bits that a text writes. -/
def number? (s : String) : Option Nat :=
  (Numeric.intIn? 0 (Numeric.maxUnsigned 64) s.toList).map Int.toNat

/-- The fault of a value, if it has one. -/
def ValueForm.fault? (form : ValueForm) (value : String) : Option UsageFault :=
  match form with
  | .flag => if value = "true" ∨ value = "false" then none else some .invalidValue
  | .text => none
  | .path => if value.isEmpty then some .invalidValue else none
  | .number => if (number? value).isSome then none else some .valueValidation

/-- The parts of a text between its commas. -/
def atCommas (s : String) : List String :=
  let rec go (part : List Char) : List Char → List (List Char)
    | [] => [part.reverse]
    | ',' :: rest => part.reverse :: go [] rest
    | c :: rest => go (c :: part) rest
  (go [] s.toList).map String.ofList

/-! ## Arguments -/

/-- The values of options that are given, by long name. -/
abbrev Given := List (String × List String)

/-- What has been read of the arguments. -/
structure Reading where
  /-- The options with all their values. -/
  given : Given := []
  /-- The option named last, and its value once that has been read. -/
  pending : Option (OptionForm × Option String) := none
  deriving Repr

/-- The options with one more value of one of them. -/
def Given.add (given : Given) (form : OptionForm) (value : String) : Except UsageFault Given :=
  if !form.many && (given.lookup form.long).isSome then .error .argumentConflict
  else
    let values := if form.commas then atCommas value else [value]
    match values.findSome? form.value.fault? with
    | some fault => .error fault
    | none =>
      let before := (given.lookup form.long).getD []
      .ok ((form.long, before ++ values) :: given.filter (·.1 != form.long))

namespace Reading

/-- Closes the option named last, which must have its value. -/
def settle (r : Reading) : Except UsageFault Given :=
  match r.pending with
  | none => .ok r.given
  | some (_, none) => .error .invalidValue
  | some (form, some value) => r.given.add form value

/-- Closes the option named last and goes on to an option with its value. -/
def give (r : Reading) (form : OptionForm) (value : String) : Except UsageFault Reading := do
  return { given := ← (← r.settle).add form value }

/-- Closes the option named last and goes on to an option whose value comes next. -/
def await (r : Reading) (form : OptionForm) : Except UsageFault Reading := do
  return { given := ← r.settle, pending := some (form, none) }

/-- Closes the option named last and then ends with what is asked for. -/
def ask (r : Reading) (what : UsageFault) : Except UsageFault Reading := do
  let _ ← r.settle
  throw what

end Reading

/-- An argument that names an option by its long name, perhaps with a value. -/
def readLong (r : Reading) (cs : List Char) : Except UsageFault Reading :=
  let name := String.ofList (cs.takeWhile (· != '='))
  let value := match cs.dropWhile (· != '=') with
    | '=' :: rest => some (String.ofList rest)
    | _ => none
  match optionForms.find? (·.long == name), value with
  | some form, some value =>
    if form.value = .flag then .error .tooManyValues else r.give form value
  | some form, none => if form.value = .flag then r.give form "true" else r.await form
  | none, some _ =>
    if name = "help" ∨ name = "version" then .error .tooManyValues else .error .unknownArgument
  | none, none =>
    if name = "help" then r.ask .displayHelp
    else if name = "version" then r.ask .displayVersion
    else .error .unknownArgument

/-- An argument that names an option by its short name, perhaps with a value. -/
def readShort (r : Reading) (c : Char) (rest : List Char) : Except UsageFault Reading :=
  match optionForms.find? (·.short == some c), rest with
  | some form, [] => r.await form
  | some form, '=' :: value => r.give form (String.ofList value)
  | some form, value => r.give form (String.ofList value)
  | none, _ =>
    if c = 'h' then r.ask .displayHelp
    else if c = 'V' then r.ask .displayVersion
    else .error .unknownArgument

/-- One argument. -/
def readArgument (r : Reading) (argument : String) : Except UsageFault Reading :=
  match argument.toList with
  | '-' :: '-' :: cs => readLong r cs
  | '-' :: c :: rest => readShort r c rest
  | _ =>
    match r.pending with
    | some (form, none) => .ok { r with pending := some (form, some argument) }
    | _ => .error .unknownArgument

/-- The options that arguments give. After a lone `--` nothing may follow. -/
def readArguments (r : Reading) : List String → Except UsageFault Given
  | [] => r.settle
  | a :: rest =>
    if a = "--" then if rest.isEmpty then r.settle else .error .unknownArgument
    else
      match readArgument r a with
      | .ok r => readArguments r rest
      | .error fault => .error fault

/-- The options with those that variables give and the arguments do not. -/
def addVariables (environment : String → Option String) (given : Given) :
    List OptionForm → Except UsageFault Given
  | [] => .ok given
  | form :: rest =>
    match given.lookup form.long, form.fallback.bind environment with
    | none, some value => do addVariables environment (← given.add form value) rest
    | _, _ => addVariables environment given rest

namespace Given

/-- The value of an option. -/
def text? (given : Given) (long : String) : Option String :=
  (given.lookup long).bind List.head?

/-- The values of an option. -/
def texts (given : Given) (long : String) : List String := (given.lookup long).getD []

/-- The number that an option is given. -/
def count? (given : Given) (long : String) : Option Nat := (given.text? long).bind number?

/-- Whether an option is given. -/
def has (given : Given) (long : String) : Bool := (given.lookup long).isSome

/-- The options with defaults for those that are not given. -/
def options (given : Given) : Options where
  host := (given.text? "host").getD ({} : Options).host
  call := given.text? "call"
  collection := given.text? "collection"
  protos := given.texts "proto"
  importPaths := given.texts "import-path"
  protoset := given.text? "protoset"
  data := given.text? "data"
  metadata := given.texts "metadata"
  expects := given.texts "expect"
  events := given.texts "event"
  tls := given.text? "tls" == some "true"
  caCert := given.text? "ca-cert"
  cert := given.text? "cert"
  key := given.text? "key"
  serverName := given.text? "server-name"
  authority := given.text? "authority"
  timeout := given.count? "timeout-ms"
  dialTimeout := (given.count? "dial-timeout-ms").getD ({} : Options).dialTimeout
  keepalive := given.count? "keepalive-ms"
  streamInterval := given.count? "stream-interval-ms"
  streamDuration := given.count? "stream-duration-ms"
  streamCount := given.count? "stream-count"

end Given

/-- The options of arguments and variables. -/
def Options.parse (arguments : List String) (environment : String → Option String) :
    Except UsageFault Options := do
  let given ← addVariables environment (← readArguments {} arguments) optionForms
  if given.has "call" && given.has "collection" || given.has "proto" && given.has "protoset" then
    throw .argumentConflict
  return given.options

end CallCheck.Probe
