/-!
# UTF-8

Texts as bytes. `Utf8.encode` writes a text; two readers take bytes back: `Utf8.decode?` refuses
what is not UTF-8, and `Utf8.decodeLossy` shows every longest beginning of a character that is
not completed as one replacement character.

Both readers run the same machine, one byte at a time. Between two bytes it holds the bits of the
character under way, the number of continuation bytes owed and the range that the next one must
lie in; the ranges keep out overlong forms, surrogates and code points past the last.
-/

namespace CallCheck.Text.Utf8

/-- A character under way. -/
structure Pending where
  /-- The code point bits read so far. -/
  bits : Nat
  /-- The continuation bytes owed after the next one. -/
  owed : Nat
  /-- The least value of the next byte. -/
  low : Nat := 0x80
  /-- The greatest value of the next byte. -/
  high : Nat := 0xbf
  deriving DecidableEq, Repr

/-- What one byte leads to. -/
inductive Step
  /-- The byte ends a character. -/
  | done (c : Char)
  /-- The character goes on. -/
  | more (p : Pending)
  /-- No character goes on with this byte. -/
  | invalid
  deriving DecidableEq, Repr

/-- A first byte. -/
def first (b : UInt8) : Step :=
  let n := b.toNat
  if n < 0x80 then .done (Char.ofNat n)
  else if n < 0xc2 then .invalid
  else if n < 0xe0 then .more { bits := n % 0x20, owed := 0 }
  else if n = 0xe0 then .more { bits := 0, owed := 1, low := 0xa0 }
  else if n = 0xed then .more { bits := 0xd, owed := 1, high := 0x9f }
  else if n < 0xf0 then .more { bits := n % 0x10, owed := 1 }
  else if n = 0xf0 then .more { bits := 0, owed := 2, low := 0x90 }
  else if n < 0xf4 then .more { bits := n % 8, owed := 2 }
  else if n = 0xf4 then .more { bits := 4, owed := 2, high := 0x8f }
  else .invalid

/-- A byte inside a character. -/
def Pending.next (p : Pending) (b : UInt8) : Step :=
  let n := b.toNat
  if p.low ≤ n ∧ n ≤ p.high then
    let bits := p.bits * 64 + n % 64
    match p.owed with
    | 0 => .done (Char.ofNat bits)
    | owed + 1 => .more { bits, owed }
  else .invalid

/-- The characters of the bytes, or `none` where the bytes are not UTF-8. -/
def decodeFrom? : Option Pending → List UInt8 → Option (List Char)
  | none, [] => some []
  | some _, [] => none
  | state, b :: rest =>
    match state.elim (first b) (·.next b) with
    | .done c => (decodeFrom? none rest).map (c :: ·)
    | .more p => decodeFrom? (some p) rest
    | .invalid => none

/-- The characters of the bytes; every longest beginning of a character that is not completed is
one replacement character. -/
def decodeLossyFrom : Option Pending → List UInt8 → List Char
  | none, [] => []
  | some _, [] => ['\ufffd']
  | none, b :: rest =>
    match first b with
    | .done c => c :: decodeLossyFrom none rest
    | .more p => decodeLossyFrom (some p) rest
    | .invalid => '\ufffd' :: decodeLossyFrom none rest
  | some p, b :: rest =>
    match p.next b with
    | .done c => c :: decodeLossyFrom none rest
    | .more q => decodeLossyFrom (some q) rest
    | .invalid =>
      '\ufffd' ::
        match first b with
        | .done c => c :: decodeLossyFrom none rest
        | .more q => decodeLossyFrom (some q) rest
        | .invalid => '\ufffd' :: decodeLossyFrom none rest

/-- The text that the bytes write, if they are UTF-8. -/
def decode? (bytes : List UInt8) : Option String :=
  (decodeFrom? none bytes).map String.ofList

/-- The text that the bytes write, whatever they are. -/
def decodeLossy (bytes : List UInt8) : String :=
  String.ofList (decodeLossyFrom none bytes)

/-- The bytes of a text. -/
def encode (s : String) : List UInt8 := s.toList.flatMap String.utf8EncodeChar

/-- The number of bytes that characters take. -/
def width : List Char → Nat
  | [] => 0
  | c :: cs => c.utf8Size + width cs

@[simp] theorem width_nil : width [] = 0 := rfl

@[simp] theorem width_cons (c : Char) (cs : List Char) :
    width (c :: cs) = c.utf8Size + width cs := rfl

theorem width_append (cs ds : List Char) : width (cs ++ ds) = width cs + width ds := by
  induction cs with
  | nil => simp
  | cons c cs ih => simp [ih, Nat.add_assoc]

end CallCheck.Text.Utf8
