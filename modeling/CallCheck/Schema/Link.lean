import CallCheck.Numeric.Width
import CallCheck.Schema.Pool

/-!
# Linking

Adding files to a pool: every name is resolved to what it means, and whatever two readers of the
schema could understand differently is refused. Files may stand in any order in the list that is
added, and may import each other and the files that the pool has.
-/

namespace CallCheck.Schema

/-- Why files cannot be linked. -/
inductive LinkFault
  /-- A file has no name. -/
  | unnamedFile
  /-- Two files share a name. -/
  | duplicateFile (name : String)
  /-- A file is in an unknown version of the language. -/
  | unknownVersion (file version : String)
  /-- An imported file is not there. -/
  | missingImport (file name : String)
  /-- An import that is passed on does not exist. -/
  | badImportIndex (file : String)
  /-- Two declarations share a name. -/
  | duplicateName (name : String)
  /-- A name stands for nothing that the file imports. -/
  | unresolved (name scope : String)
  /-- A field does not name its type. -/
  | untyped (field : String)
  /-- A field has a number that none can have. -/
  | badNumber (field : String) (number : Int)
  /-- Two fields of a message type share a number. -/
  | duplicateNumber (message : String)
  /-- Two fields of a message type share a name in JSON, or would in one of its forms. -/
  | duplicateJsonName (message : String)
  /-- A field belongs to alternatives that its message type does not declare. -/
  | badOneof (field : String)
  /-- An enumeration has no values. -/
  | emptyEnum (name : String)
  /-- The first value of an enumeration is not zero. -/
  | badDefault (name : String)
  /-- Two values of an enumeration share a number, or one has a reserved number. -/
  | badValue (name : String)
  deriving DecidableEq, Repr

/-- What is said about a fault. -/
def LinkFault.message : LinkFault → String
  | .unnamedFile => "a file has no name"
  | .duplicateFile name => s!"a file `{name}` has already been added"
  | .unknownVersion file version => s!"file `{file}` is in the unknown syntax `{version}`"
  | .missingImport file name => s!"imported file `{name}` of `{file}` has not been added"
  | .badImportIndex file => s!"file `{file}` passes on an import that it does not have"
  | .duplicateName name => s!"name `{name}` is declared twice"
  | .unresolved name scope => s!"name `{name}` is not defined in `{scope}`"
  | .untyped field => s!"field `{field}` does not name its type"
  | .badNumber field number => s!"field `{field}` cannot have the number {number}"
  | .duplicateNumber message => s!"two fields of `{message}` have the same number"
  | .duplicateJsonName message => s!"two fields of `{message}` have the same name in JSON"
  | .badOneof field => s!"field `{field}` belongs to no declared oneof"
  | .emptyEnum name => s!"enum `{name}` has no values"
  | .badDefault name => s!"the first value of enum `{name}` is not zero"
  | .badValue name => s!"two values of enum `{name}` have the same number, or a reserved one"

/-! ## Names of fields in JSON -/

/-- A name with every underscore taken out and the letter after it in upper case. -/
def camelCase : List Char → List Char
  | [] => []
  | '_' :: rest => capitalize rest
  | c :: rest => c :: camelCase rest
where
  /-- The rest of a name after an underscore. -/
  capitalize : List Char → List Char
    | [] => []
    | '_' :: rest => capitalize rest
    | c :: rest => c.toUpper :: camelCase rest

/-- The name in JSON of a field that is given none. -/
def jsonNameOf (name : String) : String := String.ofList (camelCase name.toList)

/-- A name without underscores in lower case: what is left to tell two fields apart when a name
is written in another convention. -/
def foldedName (name : String) : String :=
  String.ofList ((name.toList.filter (· != '_')).map Char.toLower)

/-! ## Definitions -/

/-- What a name stands for. -/
inductive DefinitionKind
  | package
  | message
  | enum
  | service
  /-- A field, alternatives, a value, a method or an extension. -/
  | part
  deriving DecidableEq, Repr

/-- A name and what it stands for. -/
structure Definition where
  /-- The name, with its scope. -/
  symbol : Symbol
  /-- What it stands for. -/
  kind : DefinitionKind
  /-- The file that declares it. -/
  file : String
  deriving DecidableEq, Repr

/-- The scopes that a name is in, itself first: `a.b.c`, `a.b`, `a`. -/
def enclosing (name : String) : List String :=
  let rec go : List Char → List (List Char)
    | [] => []
    | '.' :: rest => rest :: go rest
    | _ :: rest => go rest
  (name.toList.reverse :: go name.toList.reverse).map fun cs ↦ String.ofList cs.reverse

namespace FileDecl

/-- The names that a file defines. -/
def definitions (f : FileDecl) : List Definition :=
  let define (kind : DefinitionKind) (scope name : String) : Definition :=
    ⟨.of scope name, kind, f.name⟩
  (if f.package.isEmpty then [] else (enclosing f.package).map (define .package "")) ++
    (f.allMessages.flatMap fun (full, m) ↦
      ⟨⟨full, m.name⟩, .message, f.name⟩ ::
        (m.fields.map fun d ↦ define .part full d.name) ++ m.oneofs.map (define .part full)) ++
    (f.allEnums.flatMap fun (scope, e) ↦
      define .enum scope e.name :: e.values.map fun v ↦ define .part scope v.1) ++
    (f.services.flatMap fun s ↦
      define .service f.package s.name ::
        s.methods.map fun m ↦ define .part (qualify f.package s.name) m.name) ++
    f.allExtensions.map fun (scope, e) ↦ define .part scope e.name

/-- The imports that a file passes on. -/
def passedOn (f : FileDecl) : List String :=
  f.publicImports.filterMap fun i ↦ if 0 ≤ i then f.imports[i.toNat]? else none

end FileDecl

/-- Two definitions of one name that may both stand: packages can be spread over files. -/
def Definition.compatible (d e : Definition) : Bool :=
  d.symbol.full != e.symbol.full || (d.kind == .package && e.kind == .package)

/-- The name that is defined twice, if there is one. -/
def duplicate? : List Definition → Option String
  | [] => none
  | d :: rest =>
    if rest.all (Definition.compatible d) then duplicate? rest else some d.symbol.full

/-- The files that a list of files passes on, step by step. -/
def passedOnBy (all : List FileDecl) : Nat → List String → List String
  | 0, names => names
  | steps + 1, names =>
    let more := (all.filter (names.contains ·.name)).flatMap FileDecl.passedOn
    passedOnBy all steps (names ++ more.filter (!names.contains ·))

/-- The files whose names can be used in a file: itself, its imports and what they pass on. -/
def visibleFrom (all : List FileDecl) (f : FileDecl) : List String :=
  f.name :: passedOnBy all all.length f.imports

/-- Where names are looked up. -/
structure Scope where
  /-- The definitions that can be seen. -/
  definitions : List Definition
  /-- The innermost scope. -/
  name : String

namespace Scope

/-- The definition of one of some kinds that a name stands for. A name with a dot in front is a
full name; another is looked for in the innermost scope first. -/
def find? (s : Scope) (kinds : List DefinitionKind) (name : String) : Option Definition :=
  let candidates := match name.toList with
    | '.' :: cs => [String.ofList cs]
    | _ => (enclosing s.name).map (qualify · name) ++ [name]
  candidates.findSome? fun full ↦
    s.definitions.find? fun d ↦ d.symbol.full == full && kinds.contains d.kind

/-- The definition that a name stands for, or the fault that it stands for none. -/
def resolve (s : Scope) (kinds : List DefinitionKind) (name : String) :
    Except LinkFault Definition :=
  match s.find? kinds name with
  | some d => .ok d
  | none => .error (.unresolved name s.name)

/-- The type of a field. A name decides it alone; without any type a field holds numbers of double
precision. -/
def typeOf (s : Scope) (f : FieldDecl) : Except LinkFault FieldType :=
  match f.typeName, f.type with
  | some name, _ => do
    let d ← s.resolve [.message, .enum] name
    return if d.kind = .enum then .enum d.symbol.full else .message d.symbol.full
  | none, some (.scalar t) => .ok (.scalar t)
  | none, none => .ok (.scalar .double)
  | none, some _ => .error (.untyped f.name)

end Scope

/-! ## Checks -/

/-- A fault unless a condition holds. -/
def require (ok : Bool) (fault : LinkFault) : Except LinkFault Unit :=
  if ok then .ok () else .error fault

/-- Whether a field can have a number. -/
def isFieldNumber (n : Int) : Bool :=
  decide (1 ≤ n) && decide (n < Numeric.capacity 29) && !(decide (19000 ≤ n) && decide (n < 20000))

/-- Whether a number is in one of the ranges, the end of each not included. -/
def inRanges (ranges : List (Int × Int)) (n : Int) : Bool :=
  ranges.any fun r ↦ decide (r.1 ≤ n) && decide (n < r.2)

/-- A field with its type. -/
def FieldDecl.link (modern : Bool) (f : FieldDecl) (jsonName : String) (type : FieldType) :
    Field :=
  let repeated := f.label == .repeated
  let isMessage := type matches .message _
  { name := f.name
    jsonName
    number := f.number.toNat
    type
    repeated
    presence := f.explicit || f.oneof.isSome || (!repeated && (isMessage || !modern))
    packed := repeated && type.isPackable && f.packed.getD modern
    oneof := f.oneof.map Int.toNat }

/-- A field of a message type, checked. -/
def linkField (modern : Bool) (s : Scope) (m : MessageDecl) (f : FieldDecl) :
    Except LinkFault Field := do
  require (isFieldNumber f.number && !inRanges (m.reserved ++ m.extensible) f.number)
    (.badNumber f.name f.number)
  require (f.oneof.all fun (i : Int) ↦ decide (0 ≤ i) && decide (i < m.oneofs.length))
    (.badOneof f.name)
  return f.link modern (f.jsonName.getD (jsonNameOf f.name)) (← s.typeOf f)

/-- A message type, checked. -/
def linkMessage (modern : Bool) (definitions : List Definition) (full : String) (m : MessageDecl) :
    Except LinkFault MessageType := do
  let fields ← m.fields.mapM (linkField modern ⟨definitions, full⟩ m)
  require (fields.map (·.number)).Nodup (.duplicateNumber full)
  require (fields.map (·.jsonName)).Nodup (.duplicateJsonName full)
  require (!modern || decide (m.fields.map (foldedName ·.name)).Nodup) (.duplicateJsonName full)
  return ⟨⟨full, m.name⟩, fields, m.mapEntry⟩

/-- An enumeration, checked. -/
def linkEnum (modern : Bool) (scope : String) (e : EnumDecl) : Except LinkFault EnumType := do
  let full := qualify scope e.name
  require (!e.values.isEmpty) (.emptyEnum full)
  require (!modern || e.values.head?.all (·.2 == 0)) (.badDefault full)
  require (e.aliases || decide (e.values.map (·.2)).Nodup) (.badValue full)
  require (!e.values.any fun v ↦ e.reserved.any fun r ↦ decide (r.1 ≤ v.2) && decide (v.2 ≤ r.2))
    (.badValue full)
  return ⟨full, e.values⟩

/-- A service, checked. -/
def linkService (definitions : List Definition) (package : String) (s : ServiceDecl) :
    Except LinkFault Service := do
  let symbol := Symbol.of package s.name
  let scope : Scope := ⟨definitions, symbol.full⟩
  let methods ← s.methods.mapM fun m ↦ do
    let input ← scope.resolve [.message] m.input
    let output ← scope.resolve [.message] m.output
    return ⟨symbol, m.name, input.symbol, output.symbol, m.clientStreaming, m.serverStreaming⟩
  return ⟨symbol, methods⟩

/-- An extension, checked: its full name, the message type it extends and the field it adds. The
field has one name in JSON, the full name in brackets. -/
def linkExtension (modern : Bool) (definitions : List Definition)
    (messages : List (String × MessageDecl)) (scope : String) (f : FieldDecl) :
    Except LinkFault (String × String × Field) := do
  let full := qualify scope f.name
  let names : Scope := ⟨definitions, scope⟩
  let extendee ← names.resolve [.message] (f.extendee.getD "")
  let ranges := ((messages.lookup extendee.symbol.full).map (·.extensible)).getD []
  require (inRanges ranges f.number) (.badNumber full f.number)
  let name := "[" ++ full ++ "]"
  return (full, extendee.symbol.full,
    { f.link modern name (← names.typeOf f) with name, presence := f.label != .repeated })

/-- Whether a file is in the version of the language without required fields. -/
def FileDecl.modern (f : FileDecl) : Bool := f.version == some "proto3"

/-- A file's part of a pool, given all files there are. -/
def linkFile (all : List FileDecl) (definitions : List Definition)
    (messages : List (String × MessageDecl)) (f : FileDecl) : Except LinkFault Pool := do
  require (f.version.all fun v ↦ v == "proto2" || v == "proto3")
    (.unknownVersion f.name (f.version.getD ""))
  match f.imports.find? fun i ↦ !all.any (·.name == i) with
  | some i => .error (.missingImport f.name i)
  | none => .ok ()
  require (f.publicImports.all fun i ↦ decide (0 ≤ i) && decide (i < f.imports.length))
    (.badImportIndex f.name)
  let visible := visibleFrom all f
  let definitions := definitions.filter (visible.contains ·.file)
  return {
    files := [f]
    messages := ← f.allMessages.mapM fun (full, m) ↦ linkMessage f.modern definitions full m
    enums := ← f.allEnums.mapM fun (scope, e) ↦ linkEnum f.modern scope e
    services := ← f.services.mapM (linkService definitions f.package)
    extensions := ← f.allExtensions.mapM fun (scope, e) ↦
      linkExtension f.modern definitions messages scope e }

namespace Pool

/-- Two pools put together. -/
def append (p q : Pool) : Pool :=
  ⟨p.files ++ q.files, p.messages ++ q.messages, p.enums ++ q.enums, p.services ++ q.services,
    p.extensions ++ q.extensions⟩

/-- The pool with more files. Files whose names it already has are left out. -/
def add (p : Pool) (files : List FileDecl) : Except LinkFault Pool := do
  let new := files.filter fun f ↦ !p.files.any (·.name == f.name)
  let all := p.files ++ new
  require (new.all fun f ↦ !f.name.isEmpty) .unnamedFile
  require (new.map (·.name)).Nodup (.duplicateFile "")
  let definitions := all.flatMap FileDecl.definitions
  match duplicate? definitions with
  | some name => .error (.duplicateName name)
  | none => .ok ()
  let messages := all.flatMap FileDecl.allMessages
  let linked ← new.mapM (linkFile all definitions messages)
  return linked.foldl append p

end Pool

/-- The pool of a list of files. -/
def link (files : List FileDecl) : Except LinkFault Pool := Pool.add {} files

end CallCheck.Schema
