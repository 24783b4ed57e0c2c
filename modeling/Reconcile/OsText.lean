namespace Reconcile

namespace Utf8

/-- The character in place of bytes that are no text. -/
def replacement : Char := '\uFFFD'

/-- A character of several bytes that has begun. -/
structure Started where
  /-- The bits of its number so far. -/
  bits : Nat
  /-- How many bytes it has after the next one. -/
  missing : Nat
  /-- The least byte that can come next. -/
  low : Nat
  /-- The greatest byte that can come next. -/
  high : Nat
deriving DecidableEq, Repr, Inhabited

/-- The character that a byte begins. The next byte is bounded so that no character has two forms,
    none is a surrogate, and none lies beyond the last one. -/
def start? (byte : Nat) : Option Started :=
  if byte < 0xC2 then none
  else if byte < 0xE0 then some ⟨byte - 0xC0, 0, 0x80, 0xBF⟩
  else if byte = 0xE0 then some ⟨0x0, 1, 0xA0, 0xBF⟩
  else if byte = 0xED then some ⟨0xD, 1, 0x80, 0x9F⟩
  else if byte < 0xF0 then some ⟨byte - 0xE0, 1, 0x80, 0xBF⟩
  else if byte = 0xF0 then some ⟨0, 2, 0x90, 0xBF⟩
  else if byte < 0xF4 then some ⟨byte - 0xF0, 2, 0x80, 0xBF⟩
  else if byte = 0xF4 then some ⟨4, 2, 0x80, 0x8F⟩
  else none

/-- Reads a byte where a character begins. -/
def first (byte : Nat) : List Char × Option Started :=
  if byte < 0x80 then ([Char.ofNat byte], none)
  else
    match start? byte with
    | some started => ([], some started)
    | none => ([replacement], none)

/-- Reads a byte within a character. One that does not fit begins a character of its own, and a single
    replacement stands for the bytes before it. -/
def Started.next (started : Started) (byte : Nat) : List Char × Option Started :=
  if started.low ≤ byte ∧ byte ≤ started.high then
    let bits := 64 * started.bits + (byte - 0x80)
    match started.missing with
    | 0 => ([Char.ofNat bits], none)
    | missing + 1 => ([], some ⟨bits, missing, 0x80, 0xBF⟩)
  else (replacement :: (first byte).1, (first byte).2)

/-- Reads a byte: the characters that it completes, and the one that is then under way. -/
def step : Option Started → Nat → List Char × Option Started
  | none, byte => first byte
  | some started, byte => started.next byte

/-- The characters of some bytes, with a replacement for each longest run of bytes that begins a
    character and does not end it, and for each byte that cannot begin one. -/
def decode (state : Option Started) : List UInt8 → List Char
  | [] => state.toList.map fun _ => replacement
  | byte :: bytes =>
    match step state byte.toNat with
    | (chars, state) => chars ++ decode state bytes

end Utf8

/-- A text of the operating system: any bytes, which need not be the UTF-8 form of characters. -/
structure OsText where
  bytes : List UInt8
deriving DecidableEq, Repr, Inhabited

namespace OsText

def ofList (text : List Char) : OsText :=
  ⟨text.flatMap String.utf8EncodeChar⟩

def ofString (text : String) : OsText :=
  ofList text.toList

instance : Coe String OsText :=
  ⟨ofString⟩

/-- The characters that are shown for a text. They stand for it if it is the UTF-8 form of any. -/
def shown (text : OsText) : List Char :=
  Utf8.decode none text.bytes

def display (text : OsText) : String :=
  String.ofList text.shown

/-- The characters of a text that is the UTF-8 form of any. -/
def toString? (text : OsText) : Option String :=
  if ofString text.display = text then some text.display else none

end OsText

end Reconcile
