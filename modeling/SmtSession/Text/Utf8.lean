/-!
# UTF-8

**Decoding never fails:** what is no UTF-8 is replaced. Each maximal part
that could have begun a character becomes one replacement character, and so
does each byte that can begin none. The table of first bytes and of the
bounds on the byte after them is that of the standard, so overlong forms,
surrogates and code points beyond the last are not decoded.
-/

namespace SmtSession.Text.Utf8

/-- The character that stands for what could not be decoded. -/
def replacement : Char := '\uFFFD'

/-- A character that has begun. -/
structure Begun where
  /-- The bits read so far. -/
  bits : Nat
  /-- How many bytes are still to come, one at least. -/
  owed : Nat
  /-- The bounds on the next byte. -/
  least : Nat := 0x80
  most : Nat := 0xBF
  deriving DecidableEq, Inhabited

/-- What a byte between characters does. -/
inductive Lead
  | whole (c : Char)
  | begins (b : Begun)
  | invalid

/-- Reads a byte between characters. -/
def lead (b : UInt8) : Lead :=
  let n := b.toNat
  if n < 0x80 then .whole (Char.ofNat n)
  else if 0xC2 ≤ n ∧ n ≤ 0xDF then .begins { bits := n - 0xC0, owed := 1 }
  else if n = 0xE0 then .begins { bits := 0, owed := 2, least := 0xA0 }
  else if n = 0xED then .begins { bits := 0xD, owed := 2, most := 0x9F }
  else if 0xE1 ≤ n ∧ n ≤ 0xEF then .begins { bits := n - 0xE0, owed := 2 }
  else if n = 0xF0 then .begins { bits := 0, owed := 3, least := 0x90 }
  else if 0xF1 ≤ n ∧ n ≤ 0xF3 then .begins { bits := n - 0xF0, owed := 3 }
  else if n = 0xF4 then .begins { bits := 4, owed := 3, most := 0x8F }
  else .invalid

/-- Decodes bytes, behind a character that has begun, if one has. -/
def decodeFrom : Option Begun → List UInt8 → List Char
  | none, [] => []
  | some _, [] => [replacement]
  | begun, b :: bs =>
    let fresh (_ : Unit) : List Char :=
      match lead b with
      | .whole c => c :: decodeFrom none bs
      | .begins next => decodeFrom (some next) bs
      | .invalid => replacement :: decodeFrom none bs
    match begun with
    | none => fresh ()
    | some p =>
      if p.least ≤ b.toNat ∧ b.toNat ≤ p.most then
        let bits := p.bits * 64 + (b.toNat - 0x80)
        if p.owed ≤ 1 then Char.ofNat bits :: decodeFrom none bs
        else decodeFrom (some { bits := bits, owed := p.owed - 1 }) bs
      else
        replacement :: fresh ()

/-- The text of bytes. -/
def decode (bytes : List UInt8) : String :=
  String.ofList (decodeFrom none bytes)

/-- The bytes of a text. -/
def encode (s : String) : List UInt8 :=
  s.toUTF8.toList

end SmtSession.Text.Utf8
