/-!
# UTF-8

Octets are read as UTF-8 text.  Ill-formed octets are kept apart from the text, in the maximal
groups that a well-formed sequence could have begun with, and every reading of octets is a function
of that decomposition.

## Main Definitions

* `Piece` — a character, or a group of octets that is not one
* `pieces` — octets as characters and ill-formed groups, in order
* `decode?` — the text, if all octets belong to it
* `decodeLossy` — the text, with one replacement character for each ill-formed group
* `encode` — the octets of a text

## Design Notes

The decoder is a state machine over octets (`Pending` is a sequence that has begun and is not
finished), so it recurs on the octets themselves and evaluates in the kernel.
-/

namespace PartitionUnits.Text

/-- A character, or a group of octets that does not encode one. -/
inductive Piece where
  | scalar (c : Char)
  | stray (octets : List UInt8)
deriving DecidableEq, Repr

/-- A sequence that has begun: the octets so far, the bits they carry, how many are still missing,
and the range the next one has to be in. -/
structure Pending where
  octets : List UInt8
  bits : Nat
  missing : Nat
  low : UInt8 := 0x80
  high : UInt8 := 0xBF
deriving DecidableEq, Repr

/-- Begin at an octet: a character by itself, a lone ill-formed octet, or a sequence of several.
The narrower ranges after some first octets exclude overlong forms, surrogates and values above
the last code point. -/
def Pending.start (b : UInt8) : Piece ⊕ Pending :=
  let n := b.toNat
  if n < 0x80 then .inl (.scalar (Char.ofNat n))
  else if n < 0xC2 then .inl (.stray [b])
  else if n < 0xE0 then .inr { octets := [b], bits := n - 0xC0, missing := 1 }
  else if n = 0xE0 then .inr { octets := [b], bits := 0, missing := 2, low := 0xA0 }
  else if n = 0xED then .inr { octets := [b], bits := 0xD, missing := 2, high := 0x9F }
  else if n < 0xF0 then .inr { octets := [b], bits := n - 0xE0, missing := 2 }
  else if n = 0xF0 then .inr { octets := [b], bits := 0, missing := 3, low := 0x90 }
  else if n < 0xF4 then .inr { octets := [b], bits := n - 0xF0, missing := 3 }
  else if n = 0xF4 then .inr { octets := [b], bits := 4, missing := 3, high := 0x8F }
  else .inl (.stray [b])

/-- Whether an octet continues the sequence. -/
def Pending.accepts (p : Pending) (b : UInt8) : Bool := p.low ≤ b && b ≤ p.high

/-- Continue the sequence by an octet it accepts. -/
def Pending.push (p : Pending) (b : UInt8) : Piece ⊕ Pending :=
  let bits := p.bits * 64 + (b.toNat - 0x80)
  if p.missing ≤ 1 then .inl (.scalar (Char.ofNat bits))
  else .inr { octets := p.octets ++ [b], bits, missing := p.missing - 1 }

/-- Octets as pieces, from a state of the decoder. -/
def piecesFrom : Option Pending → List UInt8 → List Piece
  | none, [] => []
  | some p, [] => [.stray p.octets]
  | none, b :: bs =>
    match Pending.start b with
    | .inl piece => piece :: piecesFrom none bs
    | .inr p => piecesFrom (some p) bs
  | some p, b :: bs =>
    if p.accepts b then
      match p.push b with
      | .inl piece => piece :: piecesFrom none bs
      | .inr p => piecesFrom (some p) bs
    else
      .stray p.octets ::
        match Pending.start b with
        | .inl piece => piece :: piecesFrom none bs
        | .inr p => piecesFrom (some p) bs

/-- Octets as characters and maximal ill-formed groups. -/
def pieces (octets : List UInt8) : List Piece := piecesFrom none octets

/-- The character of a piece, the replacement character for an ill-formed group. -/
def Piece.shown : Piece → Char
  | .scalar c => c
  | .stray _ => '\uFFFD'

/-- The text of the octets, with one replacement character for each ill-formed group. -/
def decodeLossy (octets : List UInt8) : List Char := (pieces octets).map Piece.shown

/-- The text that the octets encode, if they are well-formed throughout. -/
def decode? (octets : List UInt8) : Option (List Char) :=
  (pieces octets).mapM fun
    | .scalar c => some c
    | .stray _ => none

/-- The octets of a text. -/
def encode (cs : List Char) : List UInt8 := cs.flatMap String.utf8EncodeChar

end PartitionUnits.Text
