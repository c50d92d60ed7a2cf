import CallCheck.Reflection.Query

/-!
# Closing a set of files under imports

Files name their imports, and a server is asked for those that are missing until none is.

## Rounds

Every round takes the first waiting file that has no namesake among the files stored, asks for its
imports, and stores it. Each round thus stores one more name, so there are no more rounds than
names of files. Questions are kept in the order in which they are asked.
-/

namespace CallCheck.Reflection

open Call (Error Status StatusCode)
open Schema (FileDecl)

/-- Asking a server: the questions asked so far, with the latest last, and the result. -/
abbrev Asking := ExceptT Error (StateM (List Query))

/-- A server's answer to a question. An answer that says nothing is an error, and so is an error
other than that there is no such thing. -/
def ask (server : Server) (q : Query) : Asking Reply := do
  modify (· ++ [q])
  match server.reply q with
  | .closed => throw (.reflection "stream closed without a response")
  | .failed status => throw (.status status)
  | .empty => throw (.reflection "empty response")
  | .error code message =>
    if code = notFound then return .error code message
    else throw (.reflection s!"{message} (code {code})")
  | reply => return reply

/-- The error that a reply has nothing to do with the question. -/
def unexpected (reply : Reply) : Error := .reflection s!"unexpected {reply.subject} response"

/-- The files that a server answers with when it is asked for one by name. -/
def askFile (server : Server) (name : String) : Asking (List FileDecl) := do
  match ← ask server (.file name) with
  | .files encoded => decodeFiles encoded
  | .error _ message => throw (.reflection s!"file `{name}` not available: {message}")
  | reply => throw (unexpected reply)

/-- Whether a file of a name is among files. -/
def holds (files : List FileDecl) (name : String) : Bool := files.any (·.name == name)

/-- Asks for imports of which no file is stored or waiting, and lets the answers wait. -/
def fetchImports (server : Server) (stored : List FileDecl) :
    List String → List FileDecl → Asking (List FileDecl)
  | [], waiting => return waiting
  | name :: rest, waiting => do
    if holds stored name || holds waiting name then fetchImports server stored rest waiting
    else
      let fetched ← askFile server name
      if holds fetched name then fetchImports server stored rest (waiting ++ fetched)
      else throw (.reflection s!"server did not return requested file `{name}`")

/-- Stores the waiting files, one in each round, with all that they import. -/
def close (server : Server) :
    Nat → List FileDecl → List FileDecl → Asking (List FileDecl)
  | rounds, stored, waiting =>
    match rounds, waiting.dropWhile fun f ↦ holds stored f.name with
    | _, [] => return stored
    | 0, _ => throw (.reflection "the files have more names than announced")
    | rounds + 1, f :: waiting => do
      let waiting ← fetchImports server stored f.imports waiting
      close server rounds (stored ++ [f]) waiting

/-- Files with everything that they import, directly or through others. -/
def complete (server : Server) (files : List FileDecl) : Asking (List FileDecl) :=
  close server (server.names.length + files.length) [] files

end CallCheck.Reflection
