import CallCheck.Schema.Link
import CallCheck.Schema.Source.Token

/-!
# Reading schema sources

A schema source declares a package, imports, message types, enumerations and services. Reading
it consumes tokens from the left; what nests is read with a bound on the nesting, for which the
number of tokens is always enough.
-/

namespace CallCheck.Schema.Source

/-- Consumes tokens and gives a result, or fails. -/
abbrev Reader := StateT (List Token) Option

/-- The next token. -/
def next : Reader Token := do
  match ← get with
  | [] => failure
  | t :: rest => set rest; return t

/-- A particular token. -/
def expect (t : Token) : Reader Unit := do
  if (← next) = t then return else failure

/-- A particular sign. -/
def sign (c : Char) : Reader Unit := expect (.sign c)

/-- Whether a particular token is next; it is consumed if so. -/
def accept (t : Token) : Reader Bool := do
  match ← get with
  | u :: rest => if u = t then set rest; return true else return false
  | [] => return false

/-- A name. -/
def name : Reader String := do
  match ← next with
  | .word s => return s
  | _ => failure

/-- A quoted text. -/
def text : Reader String := do
  match ← next with
  | .text s => return s
  | _ => failure

/-- An integer with an optional minus sign. -/
def integer : Reader Int := do
  match ← next with
  | .integer n => return n
  | .sign '-' =>
    match ← next with
    | .integer n => return -(n : Int)
    | _ => failure
  | _ => failure

/-- Items until a closing sign, at most as many as the bound says. -/
def upTo (close : Char) (item : Reader α) : Nat → Reader (List α)
  | 0 => failure
  | bound + 1 => do
    if ← accept (.sign close) then return []
    return (← item) :: (← upTo close item bound)

/-- Items with a sign between them, at least one. -/
def separated (between : Char) (item : Reader α) : Nat → Reader (List α)
  | 0 => failure
  | bound + 1 => do
    let a ← item
    if ← accept (.sign between) then return a :: (← separated between item bound) else return [a]

/-- Items until a closing sign, with the tokens left as the bound. -/
def block (item : Reader α) : Reader (List α) := do
  sign '\x7b'
  upTo '\x7d' item ((← get).length + 1)

/-- A name of several parts with dots between them, perhaps with a dot in front. -/
def path : Reader String := do
  let lead := if ← accept (.sign '.') then "." else ""
  return lead ++ ".".intercalate (← separated '.' name ((← get).length + 1))

/-- Passes over tokens up to a closing sign that is not inside brackets. -/
def skipTo (close : Char) : Nat → Nat → Reader Unit
  | 0, _ => failure
  | bound + 1, depth => do
    let t ← next
    if depth = 0 ∧ t = .sign close then return
    match t with
    | .sign '\x7b' | .sign '[' | .sign '(' => skipTo close bound (depth + 1)
    | .sign '\x7d' | .sign ']' | .sign ')' =>
      if depth = 0 then failure else skipTo close bound (depth - 1)
    | _ => skipTo close bound depth

/-- Passes over the rest of a statement. -/
def skipStatement : Reader Unit := do skipTo ';' ((← get).length + 1) 0

/-! ## Fields -/

/-- The scalar type of a name. -/
def scalar? : String → Option Scalar
  | "double" => some .double
  | "float" => some .float
  | "int64" => some .int64
  | "uint64" => some .uint64
  | "int32" => some .int32
  | "fixed64" => some .fixed64
  | "fixed32" => some .fixed32
  | "bool" => some .bool
  | "string" => some .string
  | "bytes" => some .bytes
  | "uint32" => some .uint32
  | "sfixed32" => some .sfixed32
  | "sfixed64" => some .sfixed64
  | "sint32" => some .sint32
  | "sint64" => some .sint64
  | _ => none

/-- A type: a scalar, or one to be looked up. -/
def typeName : Reader (Option DeclaredType × Option String) := do
  let s ← path
  match scalar? s with
  | some t => return (some (.scalar t), none)
  | none => return (none, some s)

/-- One option of a field, with the value that an option has which matters here. -/
def fieldOption : Reader (String × Token) := do
  let key ← if ← accept (.sign '(') then
      let key ← path
      sign ')'
      pure ("(" ++ key ++ ")")
    else path
  sign '='
  if ← accept (.sign '-') then return (key, ← next)
  if ← accept (.sign '\x7b') then
    skipTo '\x7d' ((← get).length + 1) 0
    return (key, .sign '\x7b')
  return (key, ← next)

/-- The options of a field, if there are any. -/
def fieldOptions : Reader (List (String × Token)) := do
  if ← accept (.sign '[') then
    let options ← separated ',' fieldOption ((← get).length + 1)
    sign ']'
    return options
  return []

/-- The rest of a field after its type. -/
def fieldAfter (label : Label) (type : Option DeclaredType × Option String) : Reader FieldDecl := do
  let name ← name
  sign '='
  let number ← integer
  let options ← fieldOptions
  sign ';'
  return {
    name, number, label
    type := type.1
    typeName := type.2
    jsonName := (options.lookup "json_name").bind fun
      | .text s => some s
      | _ => none
    packed := (options.lookup "packed").map (· == .word "true") }

/-- The name of the type that holds the entries of a map. -/
def entryName (field : String) : String :=
  String.ofList (camelCase ('_' :: field.toList)) ++ "Entry"

/-! ## Message types -/

/-- What a message type declares. -/
inductive Part
  | field (f : FieldDecl)
  /-- A field that tells unset from default. -/
  | explicit (f : FieldDecl)
  | map (f : FieldDecl) (entry : MessageDecl)
  | oneof (name : String) (fields : List FieldDecl)
  | message (m : MessageDecl)
  | enum (e : EnumDecl)
  | reserved (ranges : List (Int × Int))
  | extensible (ranges : List (Int × Int))
  | nothing

/-- The last number that a field can have. -/
def lastNumber : Int := Numeric.maxUnsigned 29

/-- A range of numbers, both ends included. -/
def range (last : Int) : Reader (Int × Int) := do
  let low ← integer
  if ← accept (.word "to") then
    if ← accept (.word "max") then return (low, last)
    return (low, ← integer)
  return (low, low)

/-- Reserved numbers, or reserved names. -/
def reserved (last : Int) : Reader (List (Int × Int)) := do
  match ← get with
  | .text _ :: _ =>
    let _ ← separated ',' text ((← get).length + 1)
    sign ';'
    return []
  | _ =>
    let ranges ← separated ',' (range last) ((← get).length + 1)
    sign ';'
    return ranges

/-- A field of a map. -/
def mapField (scope : String) : Reader Part := do
  sign '<'
  let key ← typeName
  sign ','
  let value ← typeName
  sign '>'
  let f ← fieldAfter .repeated (none, none)
  let part (name : String) (number : Int) (type : Option DeclaredType × Option String) :
      FieldDecl :=
    { name, number, type := type.1, typeName := type.2 }
  let entry := MessageDecl.mk (entryName f.name) [part "key" 1 key, part "value" 2 value] [] []
    [] [] [] [] true
  return .map { f with typeName := some ("." ++ qualify scope (entryName f.name)) } entry

/-- A field with the label that is read first. -/
def labelled (modern : Bool) : Reader Part := do
  if ← accept (.word "repeated") then return .field (← fieldAfter .repeated (← typeName))
  if ← accept (.word "optional") then
    let f ← fieldAfter .optional (← typeName)
    return if modern then .explicit f else .field f
  if modern then return .field (← fieldAfter .optional (← typeName))
  expect (.word "required")
  return .field (← fieldAfter .required (← typeName))

/-- A value of an enumeration, or nothing, or reserved numbers. -/
def enumPart : Reader ((List (String × Int) × List (Int × Int)) × Bool) := do
  if ← accept (.sign ';') then return (([], []), false)
  match ← get with
  | .word "option" :: .word "allow_alias" :: .sign '=' :: .word "true" :: _ =>
    skipStatement
    return (([], []), true)
  | .word "option" :: _ => skipStatement; return (([], []), false)
  | .word "reserved" :: rest =>
    set rest
    return (([], ← reserved (Numeric.maxSigned 32)), false)
  | _ =>
    let name ← name
    sign '='
    let number ← integer
    let _ ← fieldOptions
    sign ';'
    return (([(name, number)], []), false)

/-- An enumeration after its keyword. -/
def enumDecl : Reader EnumDecl := do
  let name ← name
  let parts ← block enumPart
  return {
    name
    values := parts.flatMap (·.1.1)
    reserved := parts.flatMap (·.1.2)
    aliases := parts.any (·.2) }

/-- A member of alternatives. -/
def oneofPart : Reader (List FieldDecl) := do
  if ← accept (.sign ';') then return []
  match ← get with
  | .word "option" :: _ => skipStatement; return []
  | _ => return [← fieldAfter .optional (← typeName)]

/-- What a message type declares next. -/
def messagePart (modern : Bool) (scope : String) (nested : Reader MessageDecl) : Reader Part := do
  if ← accept (.sign ';') then return .nothing
  match ← get with
  | .word "message" :: rest => set rest; return .message (← nested)
  | .word "enum" :: rest => set rest; return .enum (← enumDecl)
  | .word "oneof" :: rest =>
    set rest
    let name ← name
    return .oneof name (← block oneofPart).flatten
  | .word "map" :: .sign '<' :: rest => set (Token.sign '<' :: rest); mapField scope
  | .word "option" :: _ => skipStatement; return .nothing
  | .word "reserved" :: rest => set rest; return .reserved (← reserved lastNumber)
  | .word "extensions" :: rest =>
    set rest
    if modern then failure else return .extensible (← reserved lastNumber)
  | _ => labelled modern

/-- A message type made of its parts. Alternatives are numbered in order; after them come those
that fields have to themselves. -/
def ofParts (name : String) (parts : List Part) : MessageDecl :=
  let oneofs := parts.filterMap fun
    | .oneof n _ => some n
    | _ => none
  let own := parts.filterMap fun
    | .explicit f => some f.name
    | _ => none
  let index (n : String) (names : List String) : Int := names.idxOf n
  let halfOpen (r : Int × Int) : Int × Int := (r.1, r.2 + 1)
  .mk name
    (parts.flatMap fun
      | .field f => [f]
      | .explicit f =>
        [{ f with explicit := true, oneof := some (oneofs.length + index f.name own) }]
      | .map f _ => [f]
      | .oneof n fs => fs.map fun f ↦ { f with oneof := some (index n oneofs) }
      | _ => [])
    (oneofs ++ own.map ("_" ++ ·))
    (parts.filterMap fun
      | .map _ m => some m
      | .message m => some m
      | _ => none)
    (parts.filterMap fun
      | .enum e => some e
      | _ => none)
    []
    (parts.flatMap fun
      | .extensible rs => rs.map halfOpen
      | _ => [])
    (parts.flatMap fun
      | .reserved rs => rs.map halfOpen
      | _ => [])
    false

/-- A message type after its keyword. -/
def messageDecl (modern : Bool) : Nat → String → Reader MessageDecl
  | 0, _ => failure
  | bound + 1, scope => do
    let name ← name
    let inner := qualify scope name
    return ofParts name (← block (messagePart modern inner (messageDecl modern bound inner)))

/-! ## Services and files -/

/-- The type of a message in brackets, and whether there is a stream of them. -/
def streamed : Reader (Bool × String) := do
  sign '('
  let stream ← match ← get with
    | .word "stream" :: .sign '.' :: .word _ :: _ => accept (.word "stream")
    | .word "stream" :: .word _ :: _ => accept (.word "stream")
    | _ => pure false
  let type ← path
  sign ')'
  return (stream, type)

/-- An option or nothing. -/
def emptyPart : Reader Unit := do
  if ← accept (.sign ';') then return
  expect (.word "option")
  skipStatement

/-- A method of a service, or nothing. -/
def servicePart : Reader (List MethodDecl) := do
  match ← get with
  | .word "rpc" :: rest =>
    set rest
    let name ← name
    let (clientStreaming, input) ← streamed
    expect (.word "returns")
    let (serverStreaming, output) ← streamed
    if !(← accept (.sign ';')) then
      let _ ← block emptyPart
    return [{ name, input, output, clientStreaming, serverStreaming }]
  | _ => emptyPart; return []

/-- What a file declares next, added to what it declares before. -/
def filePart (f : FileDecl) : Reader FileDecl := do
  match ← next with
  | .sign ';' => return f
  | .word "package" =>
    let package ← path
    sign ';'
    if f.package.isEmpty then return { f with package } else failure
  | .word "import" =>
    let passedOn ← accept (.word "public")
    let _ ← if passedOn then pure false else accept (.word "weak")
    let file ← text
    sign ';'
    return { f with
      imports := f.imports ++ [file]
      publicImports := f.publicImports ++ if passedOn then [(f.imports.length : Int)] else [] }
  | .word "option" => skipStatement; return f
  | .word "message" =>
    let m ← messageDecl (f.version == some "proto3") ((← get).length + 1) f.package
    return { f with messages := f.messages ++ [m] }
  | .word "enum" =>
    let e ← enumDecl
    return { f with enums := f.enums ++ [e] }
  | .word "service" =>
    let name ← name
    let methods ← block servicePart
    return { f with services := f.services ++ [⟨name, methods.flatten⟩] }
  | _ => failure

/-- The parts of a file until its end. -/
def fileParts : Nat → FileDecl → Reader FileDecl
  | 0, _ => failure
  | bound + 1, f => do
    if (← get).isEmpty then return f
    fileParts bound (← filePart f)

/-- The version of the language, which a source names first if at all. -/
def version : Reader String := do
  match ← get with
  | .word "syntax" :: rest =>
    set rest
    sign '='
    let v ← text
    sign ';'
    if v == "proto2" || v == "proto3" then return v else failure
  | _ => return "proto2"

/-- The file that a source of a name declares. -/
def file? (name source : String) : Option FileDecl := do
  let tokens ← tokens? source.toList
  let read : Reader FileDecl := do
    let v ← version
    fileParts (tokens.length + 1) { name, version := some v }
  return (← read.run tokens).1

end CallCheck.Schema.Source
