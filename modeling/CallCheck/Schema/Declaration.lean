/-!
# Declarations

What the files of a schema declare, as it is written: types are referred to by name, and nothing
has been checked.
-/

namespace CallCheck.Schema

/-- The types without parts. -/
inductive Scalar
  | double
  | float
  | int64
  | uint64
  | int32
  | fixed64
  | fixed32
  | bool
  | string
  | bytes
  | uint32
  | sfixed32
  | sfixed64
  | sint32
  | sint64
  deriving DecidableEq, Repr

/-- What a field declares about its type. -/
inductive DeclaredType
  | scalar (s : Scalar)
  | group
  | message
  | enum
  deriving DecidableEq, Repr

/-- How often a field occurs. -/
inductive Label
  | optional
  | required
  | repeated
  deriving DecidableEq, Repr

/-- A field of a message, or an extension. -/
structure FieldDecl where
  /-- Its name. -/
  name : String
  /-- Its number. -/
  number : Int
  /-- How often it occurs. -/
  label : Label := .optional
  /-- Its type, if it is given. -/
  type : Option DeclaredType
  /-- The name of its type. -/
  typeName : Option String := none
  /-- The message that an extension extends. -/
  extendee : Option String := none
  /-- Its name in JSON, if it is not derived. -/
  jsonName : Option String := none
  /-- The alternatives it belongs to, by index. -/
  oneof : Option Int := none
  /-- Whether an unset field differs from one set to the default. -/
  explicit : Bool := false
  /-- Whether its numbers are written in one record. -/
  packed : Option Bool := none
  deriving DecidableEq, Repr

/-- An enumeration. -/
structure EnumDecl where
  /-- Its name. -/
  name : String
  /-- Its values with their numbers. -/
  values : List (String × Int)
  /-- Numbers that no value may have, the last of each range included. -/
  reserved : List (Int × Int) := []
  /-- Whether values may share a number. -/
  aliases : Bool := false
  deriving DecidableEq, Repr

/-- A message type. -/
inductive MessageDecl
  /-- A message type of its name, its fields, the names of its alternatives, the types declared
  in it, the ranges of field numbers left to extensions and those that are reserved, and whether
  it is the entry of a map. -/
  | mk (name : String) (fields : List FieldDecl) (oneofs : List String)
    (messages : List MessageDecl) (enums : List EnumDecl) (extensions : List FieldDecl)
    (extensible reserved : List (Int × Int)) (mapEntry : Bool)
  deriving Repr, Inhabited

namespace MessageDecl

/-- The name of a message type. -/
def name : MessageDecl → String
  | mk name .. => name

/-- The fields of a message type. -/
def fields : MessageDecl → List FieldDecl
  | mk _ fields .. => fields

/-- The names of the alternatives of a message type. -/
def oneofs : MessageDecl → List String
  | mk _ _ oneofs .. => oneofs

/-- The message types declared in a message type. -/
def messages : MessageDecl → List MessageDecl
  | mk _ _ _ messages .. => messages

/-- The enumerations declared in a message type. -/
def enums : MessageDecl → List EnumDecl
  | mk _ _ _ _ enums .. => enums

/-- The extensions declared in a message type. -/
def extensions : MessageDecl → List FieldDecl
  | mk _ _ _ _ _ extensions .. => extensions

/-- The ranges of numbers left to extensions, the end of each not included. -/
def extensible : MessageDecl → List (Int × Int)
  | mk _ _ _ _ _ _ extensible .. => extensible

/-- The ranges of numbers that no field may have, the end of each not included. -/
def reserved : MessageDecl → List (Int × Int)
  | mk _ _ _ _ _ _ _ reserved _ => reserved

/-- Whether a message type is the entry of a map. -/
def mapEntry : MessageDecl → Bool
  | mk _ _ _ _ _ _ _ _ mapEntry => mapEntry

mutual

/-- Message types are compared with those declared in them. -/
def decEq : (m n : MessageDecl) → Decidable (m = n)
  | mk name fields oneofs messages enums extensions extensible reserved mapEntry,
    mk name' fields' oneofs' messages' enums' extensions' extensible' reserved' mapEntry' =>
    have : Decidable (messages = messages') := decEqList messages messages'
    decidable_of_iff (name = name' ∧ fields = fields' ∧ oneofs = oneofs' ∧ messages = messages' ∧
        enums = enums' ∧ extensions = extensions' ∧ extensible = extensible' ∧
        reserved = reserved' ∧ mapEntry = mapEntry')
      (Iff.of_eq (mk.injEq ..).symm)

/-- Lists of message types are compared one by one. -/
def decEqList : (ms ns : List MessageDecl) → Decidable (ms = ns)
  | [], [] => isTrue rfl
  | [], _ :: _ => isFalse nofun
  | _ :: _, [] => isFalse nofun
  | m :: ms, n :: ns =>
    have : Decidable (m = n) := decEq m n
    have : Decidable (ms = ns) := decEqList ms ns
    decidable_of_iff (m = n ∧ ms = ns) (Iff.of_eq (List.cons.injEq ..).symm)

end

instance : DecidableEq MessageDecl := decEq

end MessageDecl

/-- A method of a service. -/
structure MethodDecl where
  /-- Its name. -/
  name : String
  /-- The name of the type it takes. -/
  input : String
  /-- The name of the type it gives. -/
  output : String
  /-- Whether it takes a stream of messages. -/
  clientStreaming : Bool := false
  /-- Whether it gives a stream of messages. -/
  serverStreaming : Bool := false
  deriving DecidableEq, Repr

/-- A service. -/
structure ServiceDecl where
  /-- Its name. -/
  name : String
  /-- Its methods. -/
  methods : List MethodDecl
  deriving DecidableEq, Repr

/-- A file. -/
structure FileDecl where
  /-- Its name, by which others import it. -/
  name : String
  /-- The package that its declarations are in. -/
  package : String := ""
  /-- The version of the language, if it is given. -/
  version : Option String := none
  /-- The files it imports. -/
  imports : List String := []
  /-- The imports that it passes on, by index. -/
  publicImports : List Int := []
  /-- Its message types. -/
  messages : List MessageDecl := []
  /-- Its enumerations. -/
  enums : List EnumDecl := []
  /-- Its services. -/
  services : List ServiceDecl := []
  /-- Its extensions. -/
  extensions : List FieldDecl := []
  deriving DecidableEq, Repr

/-! ## Names -/

/-- A name in a scope; the outermost scope is empty. -/
def qualify (scope name : String) : String := if scope.isEmpty then name else scope ++ "." ++ name

mutual

/-- The message types declared by one and inside it, with their full names. -/
def MessageDecl.within (scope : String) : MessageDecl → List (String × MessageDecl)
  | mk name fields oneofs messages enums extensions extensible reserved mapEntry =>
    (qualify scope name,
        mk name fields oneofs messages enums extensions extensible reserved mapEntry) ::
      MessageDecl.allWithin (qualify scope name) messages

/-- The message types declared by any of a list and inside them, with their full names. -/
def MessageDecl.allWithin (scope : String) : List MessageDecl → List (String × MessageDecl)
  | [] => []
  | m :: rest => m.within scope ++ MessageDecl.allWithin scope rest

end

namespace FileDecl

/-- All message types of a file with their full names. -/
def allMessages (f : FileDecl) : List (String × MessageDecl) :=
  MessageDecl.allWithin f.package f.messages

/-- All enumerations of a file with the scopes they are declared in. -/
def allEnums (f : FileDecl) : List (String × EnumDecl) :=
  f.enums.map (f.package, ·) ++ f.allMessages.flatMap fun (scope, m) ↦ m.enums.map (scope, ·)

/-- All extensions of a file with the scopes they are declared in. -/
def allExtensions (f : FileDecl) : List (String × FieldDecl) :=
  f.extensions.map (f.package, ·) ++
    f.allMessages.flatMap fun (scope, m) ↦ m.extensions.map (scope, ·)

end FileDecl

end CallCheck.Schema
