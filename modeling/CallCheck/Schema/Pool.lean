import CallCheck.Schema.Declaration

/-!
# Pools

A pool is a schema whose names have been resolved: message types, enumerations, services and
extensions by full name, and the files they come from in the order in which they were added.
-/

namespace CallCheck.Schema

/-- A full name and the part of it that the declaration itself gives. -/
structure Symbol where
  /-- The name with its scope. -/
  full : String
  /-- The name without its scope. -/
  name : String
  deriving DecidableEq, Repr

/-- The symbol of a name in a scope. -/
def Symbol.of (scope name : String) : Symbol := ⟨qualify scope name, name⟩

/-- The type of a field, what is not scalar by its full name. -/
inductive FieldType
  | scalar (s : Scalar)
  | enum (name : String)
  | message (name : String)
  deriving DecidableEq, Repr

/-- Whether the numbers of a type can be written in one record. -/
def FieldType.isPackable : FieldType → Bool
  | .scalar .string => false
  | .scalar .bytes => false
  | .scalar _ => true
  | .enum _ => true
  | .message _ => false

/-- A field of a message type, or one that an extension adds to it. -/
structure Field where
  /-- Its name. -/
  name : String
  /-- Its name in JSON. -/
  jsonName : String
  /-- Its number. -/
  number : Nat
  /-- The type of its values. -/
  type : FieldType
  /-- Whether it holds any number of values. -/
  repeated : Bool := false
  /-- Whether an unset field differs from one set to the default. -/
  presence : Bool := false
  /-- Whether its numbers are written in one record. -/
  packed : Bool := false
  /-- The alternatives it belongs to, by index. -/
  oneof : Option Nat := none
  deriving DecidableEq, Repr

/-- A message type. -/
structure MessageType where
  /-- Its name. -/
  symbol : Symbol
  /-- Its fields in the order of their declaration. -/
  fields : List Field
  /-- Whether it is the entry of a map, and its fields are the key and the value. -/
  mapEntry : Bool := false
  deriving DecidableEq, Repr

namespace MessageType

/-- The field with a number. -/
def field? (m : MessageType) (number : Nat) : Option Field :=
  m.fields.find? fun f ↦ f.number == number

/-- The field that a member of a JSON object names, by its JSON name or else by its name. -/
def named? (m : MessageType) (key : String) : Option Field :=
  (m.fields.find? fun f ↦ f.jsonName == key).or (m.fields.find? fun f ↦ f.name == key)

end MessageType

/-- An enumeration. -/
structure EnumType where
  /-- Its full name. -/
  name : String
  /-- Its values with their numbers. -/
  values : List (String × Int)
  deriving DecidableEq, Repr

namespace EnumType

/-- The number of a value. -/
def number? (e : EnumType) (value : String) : Option Int := e.values.lookup value

/-- The first value with a number. -/
def value? (e : EnumType) (number : Int) : Option String :=
  (e.values.find? fun v ↦ v.2 == number).map (·.1)

/-- The number that stands for no choice: that of the first value. -/
def default (e : EnumType) : Int := (e.values.head?.map (·.2)).getD 0

end EnumType

/-- The shapes of a call. -/
inductive CallKind
  /-- One message each way. -/
  | unary
  /-- A stream of messages to the server. -/
  | clientStreaming
  /-- A stream of messages from the server. -/
  | serverStreaming
  /-- Streams both ways. -/
  | bidi
  deriving DecidableEq, Repr

/-- A method that can be called. -/
structure Method where
  /-- Its service. -/
  service : Symbol
  /-- Its name in the service. -/
  name : String
  /-- The type of the messages it takes. -/
  input : Symbol
  /-- The type of the messages it gives. -/
  output : Symbol
  /-- Whether it takes a stream of messages. -/
  clientStreaming : Bool
  /-- Whether it gives a stream of messages. -/
  serverStreaming : Bool
  deriving DecidableEq, Repr

namespace Method

/-- The full name of a method. -/
def fullName (m : Method) : String := qualify m.service.full m.name

/-- The shape of a call of a method. -/
def kind (m : Method) : CallKind :=
  match m.clientStreaming, m.serverStreaming with
  | false, false => .unary
  | true, false => .clientStreaming
  | false, true => .serverStreaming
  | true, true => .bidi

/-- What tells two methods apart: the full names and the directions of streaming. -/
def signature (m : Method) : String × String × String × String × Bool × Bool :=
  (m.fullName, m.service.full, m.input.full, m.output.full, m.clientStreaming, m.serverStreaming)

/-- The same method, perhaps out of two pools. -/
def same (m n : Method) : Bool := m.signature == n.signature

end Method

/-- A service. -/
structure Service where
  /-- Its name. -/
  symbol : Symbol
  /-- Its methods. -/
  methods : List Method
  deriving DecidableEq, Repr

/-- A schema whose names have been resolved. -/
structure Pool where
  /-- The files. -/
  files : List FileDecl := []
  /-- The message types. -/
  messages : List MessageType := []
  /-- The enumerations. -/
  enums : List EnumType := []
  /-- The services. -/
  services : List Service := []
  /-- The full names of the extensions, each with the message type it extends and the field it
  adds. -/
  extensions : List (String × String × Field) := []
  deriving DecidableEq, Repr

namespace Pool

/-- A name without a dot in front. -/
def absolute (name : String) : String :=
  match name.toList with
  | '.' :: cs => String.ofList cs
  | _ => name

/-- The message type of a full name. -/
def message? (p : Pool) (name : String) : Option MessageType :=
  p.messages.find? fun m ↦ m.symbol.full == absolute name

/-- The enumeration of a full name. -/
def enum? (p : Pool) (name : String) : Option EnumType :=
  p.enums.find? fun e ↦ e.name == absolute name

/-- The service of a full name. -/
def service? (p : Pool) (name : String) : Option Service :=
  p.services.find? fun s ↦ s.symbol.full == absolute name

/-- Whether there is an extension of a full name. -/
def hasExtension (p : Pool) (name : String) : Bool :=
  p.extensions.any fun e ↦ e.1 == absolute name

end Pool

end CallCheck.Schema
