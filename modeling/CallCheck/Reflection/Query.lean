import CallCheck.Call.Error
import CallCheck.Schema.Binary

/-!
# Reflection

A server can be asked for the files that describe its services. Every question is one call with
one answer.

## What a server is

A server is a function from questions to answers: asking does not change it. Next to the function
stands a list of names. The search for missing imports ends because every file that a server hands
out bears one of these names, and the list bounds the number of its rounds.
-/

namespace CallCheck.Reflection

open Call (Error Status StatusCode)
open Schema (FileDecl)

/-- What is asked. -/
inductive Query
  /-- For the file that declares a symbol. -/
  | symbol (name : String)
  /-- For a file by its name. -/
  | file (name : String)
  /-- For the names of the services. -/
  | services
  deriving DecidableEq, Repr

/-- What a server answers. -/
inductive Reply
  /-- Files, in their binary form. -/
  | files (encoded : List (List UInt8))
  /-- The names of the services. -/
  | services (names : List String)
  /-- The numbers of the extensions of a type. -/
  | extensions
  /-- That it cannot answer. -/
  | error (code : Int) (message : String)
  /-- A status that ends the call. -/
  | failed (status : Status)
  /-- An answer without content. -/
  | empty
  /-- The end of the call, without an answer. -/
  | closed
  deriving DecidableEq, Repr

/-- What a reply is about. -/
def Reply.subject : Reply → String
  | .files _ => "file descriptors"
  | .services _ => "service list"
  | .extensions => "extension numbers"
  | _ => "error"

/-- The code of an error that says that there is no such thing. -/
def notFound : Int := 5

/-- The files in a reply, by what they declare. -/
def decodeFiles (encoded : List (List UInt8)) : Except Error (List FileDecl) :=
  encoded.mapM fun bytes ↦
    match FileDecl.ofBytes? bytes with
    | some f => .ok f
    | none => .error (.schema "reflection" "the bytes are no file descriptor")

/-- The names of the files in a reply. -/
def Reply.names : Reply → List String
  | .files encoded => encoded.filterMap fun bytes ↦ (FileDecl.ofBytes? bytes).map (·.name)
  | _ => []

/-- A server with an account of its schema. -/
structure Server where
  /-- What it answers. -/
  reply : Query → Reply
  /-- The names of the files that it hands out. -/
  names : List String
  /-- It hands out no others. -/
  mem_names : ∀ q, ∀ name ∈ (reply q).names, name ∈ names

namespace Server

/-- The names in what a table answers are those in the table. -/
theorem mem_names_lookup {table : List (String × Reply)} {key message name : String}
    (h : name ∈ ((table.lookup key).getD (.error notFound message)).names) :
    name ∈ table.flatMap fun (_, r) ↦ r.names := by
  cases hlookup : table.lookup key with
  | none =>
    rw [hlookup] at h
    cases h
  | some reply =>
    rw [hlookup] at h
    obtain ⟨before, after, rfl, -⟩ := List.lookup_eq_some_iff.1 hlookup
    exact List.mem_flatMap.2 ⟨(key, reply), List.mem_append_right _ List.mem_cons_self, h⟩

/-- The server that answers by tables and knows nothing else. -/
def ofTables (symbols files : List (String × Reply)) (services : Reply) : Server where
  reply
    | .symbol name => (symbols.lookup name).getD (.error notFound s!"no {name}")
    | .file name => (files.lookup name).getD (.error notFound s!"no {name}")
    | .services => services
  names := (symbols.flatMap fun (_, r) ↦ r.names) ++ (files.flatMap fun (_, r) ↦ r.names) ++
    services.names
  mem_names
    | .symbol _, _, h => List.mem_append_left _ (List.mem_append_left _ (mem_names_lookup h))
    | .file _, _, h => List.mem_append_left _ (List.mem_append_right _ (mem_names_lookup h))
    | .services, _, h => List.mem_append_right _ h

/-- The server that knows the services of some files, and the files. -/
def ofFiles (files : List FileDecl) : Server :=
  let replyWith (f : FileDecl) : Reply := .files [f.bytes]
  let services := files.flatMap fun f ↦
    f.services.map fun s ↦ (Schema.qualify f.package s.name, replyWith f)
  ofTables services (files.map fun f ↦ (f.name, replyWith f)) (.services (services.map (·.1)))

end Server

end CallCheck.Reflection
