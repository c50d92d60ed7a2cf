import CallCheck.Call.Data
import CallCheck.Call.Error
import CallCheck.Message.Json

/-!
# Providers

Where the messages of a call come from. A provider is asked once for each message, with the data of
the call at that moment, until it says that there are no more.
-/

namespace CallCheck.Call

open Message Schema

/-- The message of a type that a text writes. -/
def readMessage (p : Pool) (m : MessageType) (text : String) : Except Error Value :=
  match ofText? p m text with
  | some v => .ok v
  | none => .error (.invalidMessage m.symbol.full "the text is no message of this type")

/-- What a provider answers. -/
inductive Supply (α : Type)
  /-- A message to send; there may be more. -/
  | message (m : α)
  /-- The last message to send. -/
  | last (m : α)
  /-- There are no more. -/
  | finished
  deriving DecidableEq, Repr

/-- The first message of a list and the rest of them. -/
def Supply.ofList : List α → Supply α × List α
  | [] => (.finished, [])
  | m :: rest => (.message m, rest)

/-- A source of messages, with a state of its own. -/
abbrev Provider (σ : Type) := σ → Data → Except Error (Supply Value) × σ

/-- Gives the messages of a list in order. -/
def listProvider : Provider (List Value) := fun messages _ ↦
  let (supply, rest) := Supply.ofList messages
  (.ok supply, rest)

/-- Fills the templates of a list in order and gives the messages of a type that they write. -/
def templateProvider (p : Pool) (m : MessageType) : Provider (List String)
  | [], _ => (.ok .finished, [])
  | template :: rest, data => ((readMessage p m (data.render template)).map .message, rest)

/-- The answers of a provider to a number of questions with the same data. -/
def pull (provider : Provider σ) (data : Data) : Nat → σ → List (Except Error (Supply Value))
  | 0, _ => []
  | count + 1, state =>
    let (answer, state) := provider state data
    answer :: pull provider data count state

end CallCheck.Call
