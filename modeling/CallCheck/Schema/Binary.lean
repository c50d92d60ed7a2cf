import CallCheck.Schema.Declaration
import CallCheck.Wire.Fields

/-!
# Descriptor sets

Files of a schema as bytes. Declarations are themselves messages, whose fields have fixed numbers.
`readFiles?` takes the bytes of a set of files apart and `writeFiles` makes them.
-/

namespace CallCheck.Schema

open Wire

/-! ## Numbers of types and labels -/

/-- The number of a type. -/
def DeclaredType.number : DeclaredType → Nat
  | .scalar .double => 1
  | .scalar .float => 2
  | .scalar .int64 => 3
  | .scalar .uint64 => 4
  | .scalar .int32 => 5
  | .scalar .fixed64 => 6
  | .scalar .fixed32 => 7
  | .scalar .bool => 8
  | .scalar .string => 9
  | .group => 10
  | .message => 11
  | .scalar .bytes => 12
  | .scalar .uint32 => 13
  | .enum => 14
  | .scalar .sfixed32 => 15
  | .scalar .sfixed64 => 16
  | .scalar .sint32 => 17
  | .scalar .sint64 => 18

/-- The types in the order of their numbers. -/
def DeclaredType.all : List DeclaredType :=
  [.scalar .double, .scalar .float, .scalar .int64, .scalar .uint64, .scalar .int32,
    .scalar .fixed64, .scalar .fixed32, .scalar .bool, .scalar .string, .group, .message,
    .scalar .bytes, .scalar .uint32, .enum, .scalar .sfixed32, .scalar .sfixed64, .scalar .sint32,
    .scalar .sint64]

/-- The type with a number. -/
def DeclaredType.ofNumber? (n : Int) : Option DeclaredType :=
  all.find? fun t ↦ (t.number : Int) == n

/-- The number of a label. -/
def Label.number : Label → Nat
  | .optional => 1
  | .required => 2
  | .repeated => 3

/-- The label with a number; others are optional. -/
def Label.ofNumber : Int → Label
  | 2 => .required
  | 3 => .repeated
  | _ => .optional

/-! ## Reading -/

/-- How deep messages may nest. -/
def maxNesting : Nat := 100

/-- The messages of a field, each read from its records. -/
def messages? (depth field : Nat) (read : List Record → Option α) (records : List Record) :
    Option (List α) := do
  (← bodies? field records).mapM fun body ↦ (records? depth body).bind read

/-- The options of a declaration. -/
def options? (depth field : Nat) (records : List Record) : Option (List Record) :=
  (body? field records).bind (records? depth)

/-- A field. -/
def readField? (depth : Nat) (records : List Record) : Option FieldDecl := do
  let options ← options? depth 8 records
  return {
    name := (← text? 1 records).getD ""
    extendee := ← text? 2 records
    number := (← int? 3 records).getD 0
    label := ((← int? 4 records).map Label.ofNumber).getD .optional
    type := (← int? 5 records).bind DeclaredType.ofNumber?
    typeName := ← text? 6 records
    oneof := ← int? 9 records
    jsonName := ← text? 10 records
    explicit := (← flag? 17 records).getD false
    packed := ← flag? 2 options }

/-- A range of numbers. -/
def readRange? (records : List Record) : Option (Int × Int) := do
  return ((← int? 1 records).getD 0, (← int? 2 records).getD 0)

/-- A declaration that is a name and perhaps a number. -/
def readNamed? (records : List Record) : Option (String × Int) := do
  return ((← text? 1 records).getD "", (← int? 2 records).getD 0)

/-- An enumeration. -/
def readEnum? (depth : Nat) (records : List Record) : Option EnumDecl := do
  let options ← options? depth 3 records
  return {
    name := (← text? 1 records).getD ""
    values := ← messages? depth 2 readNamed? records
    reserved := ← messages? depth 4 readRange? records
    aliases := (← flag? 2 options).getD false }

/-- A message type, with at most `depth` more in each other. -/
def readMessage? : Nat → List Record → Option MessageDecl
  | 0, _ => none
  | depth + 1, records => do
    let options ← options? depth 7 records
    return .mk ((← text? 1 records).getD "")
      (← messages? depth 2 (readField? depth) records)
      ((← messages? depth 8 readNamed? records).map (·.1))
      (← messages? depth 3 (readMessage? depth) records)
      (← messages? depth 4 (readEnum? depth) records)
      (← messages? depth 6 (readField? depth) records)
      (← messages? depth 5 readRange? records)
      (← messages? depth 9 readRange? records)
      ((← flag? 7 options).getD false)

/-- A method. -/
def readMethod? (records : List Record) : Option MethodDecl := do
  return {
    name := (← text? 1 records).getD ""
    input := (← text? 2 records).getD ""
    output := (← text? 3 records).getD ""
    clientStreaming := (← flag? 5 records).getD false
    serverStreaming := (← flag? 6 records).getD false }

/-- A service. -/
def readService? (depth : Nat) (records : List Record) : Option ServiceDecl := do
  return {
    name := (← text? 1 records).getD ""
    methods := ← messages? depth 2 readMethod? records }

/-- A file. -/
def readFile? (depth : Nat) (records : List Record) : Option FileDecl := do
  return {
    name := (← text? 1 records).getD ""
    package := (← text? 2 records).getD ""
    version := ← text? 12 records
    imports := ← texts? 3 records
    publicImports := ← ints? 10 records
    messages := ← messages? depth 4 (readMessage? depth) records
    enums := ← messages? depth 5 (readEnum? depth) records
    services := ← messages? depth 6 (readService? depth) records
    extensions := ← messages? depth 7 (readField? depth) records }

/-- The file that bytes describe. -/
def FileDecl.ofBytes? (bytes : List UInt8) : Option FileDecl :=
  (records? maxNesting bytes).bind (readFile? maxNesting)

/-- The files that the bytes of a set describe. -/
def readFiles? (bytes : List UInt8) : Option (List FileDecl) :=
  (records? maxNesting bytes).bind (messages? maxNesting 1 (readFile? maxNesting))

/-! ## Writing -/

/-- A record for a value that is given. -/
def given (write : α → Record) (value : Option α) : List Record := (value.map write).toList

/-- A record for a text that is not empty. -/
def givenText (field : Nat) (s : String) : List Record :=
  if s.isEmpty then [] else [textRecord field s]

/-- A record for a truth value that is true. -/
def givenFlag (field : Nat) (b : Bool) : List Record := if b then [flagRecord field true] else []

/-- The records of a field. -/
def writeField (f : FieldDecl) : List Record :=
  givenText 1 f.name ++ given (textRecord 2) f.extendee ++ [intRecord 3 f.number,
    .varint 4 f.label.number] ++ given (fun t ↦ .varint 5 t.number) f.type ++
    given (textRecord 6) f.typeName ++
    given (fun p ↦ messageRecord 8 [flagRecord 2 p]) f.packed ++ given (intRecord 9) f.oneof ++
    given (textRecord 10) f.jsonName ++ givenFlag 17 f.explicit

/-- The records of a range. -/
def writeRange (r : Int × Int) : List Record := [intRecord 1 r.1, intRecord 2 r.2]

/-- The records of an enumeration. -/
def writeEnum (e : EnumDecl) : List Record :=
  givenText 1 e.name ++
    e.values.map (fun v ↦ messageRecord 2 (givenText 1 v.1 ++ [intRecord 2 v.2])) ++
    (if e.aliases then [messageRecord 3 [flagRecord 2 true]] else []) ++
    e.reserved.map fun r ↦ messageRecord 4 (writeRange r)

mutual

/-- The records of a message type. -/
def writeMessage : MessageDecl → List Record
  | .mk name fields oneofs messages enums extensions extensible reserved mapEntry =>
    givenText 1 name ++ fields.map (fun f ↦ messageRecord 2 (writeField f)) ++
      writeMessages 3 messages ++ enums.map (fun e ↦ messageRecord 4 (writeEnum e)) ++
      extensible.map (fun r ↦ messageRecord 5 (writeRange r)) ++
      extensions.map (fun f ↦ messageRecord 6 (writeField f)) ++
      (if mapEntry then [messageRecord 7 [flagRecord 7 true]] else []) ++
      oneofs.map (fun o ↦ messageRecord 8 (givenText 1 o)) ++
      reserved.map fun r ↦ messageRecord 9 (writeRange r)

/-- The message types of a list, each as one record. -/
def writeMessages (field : Nat) : List MessageDecl → List Record
  | [] => []
  | m :: rest => messageRecord field (writeMessage m) :: writeMessages field rest

end

/-- The records of a method. -/
def writeMethod (m : MethodDecl) : List Record :=
  givenText 1 m.name ++ [textRecord 2 m.input, textRecord 3 m.output] ++
    givenFlag 5 m.clientStreaming ++ givenFlag 6 m.serverStreaming

/-- The records of a service. -/
def writeService (s : ServiceDecl) : List Record :=
  givenText 1 s.name ++ s.methods.map fun m ↦ messageRecord 2 (writeMethod m)

/-- The records of a file. -/
def writeFile (f : FileDecl) : List Record :=
  givenText 1 f.name ++ givenText 2 f.package ++ f.imports.map (textRecord 3) ++
    writeMessages 4 f.messages ++ f.enums.map (fun e ↦ messageRecord 5 (writeEnum e)) ++
    f.services.map (fun s ↦ messageRecord 6 (writeService s)) ++
    f.extensions.map (fun e ↦ messageRecord 7 (writeField e)) ++
    f.publicImports.map (intRecord 10) ++ given (textRecord 12) f.version

/-- The bytes that describe a file. -/
def FileDecl.bytes (f : FileDecl) : List UInt8 := writeRecords (writeFile f)

/-- The bytes of a set of files. -/
def writeFiles (files : List FileDecl) : List UInt8 :=
  writeRecords (files.map fun f ↦ messageRecord 1 (writeFile f))

end CallCheck.Schema
