import Refinery.Text.Basic

/-!
Decoding UTF-8 piece by piece. Octets that no sequence can go on with are replaced: each longest
start of a sequence that breaks off becomes one replacement character.
-/

namespace Refinery.Text

/-- A sequence that is not complete: the bits so far, how many octets are missing, and the range of
the next one. -/
structure Utf8 where
  bits : Nat := 0
  missing : Nat := 0
  low : Nat := 0x80
  high : Nat := 0xBF
  deriving DecidableEq

namespace Utf8

def start : Utf8 := {}

def replacement : Char := '\ufffd'

/-- Begins a sequence with an octet. -/
def lead (b : Nat) : Utf8 × Text :=
  if b < 0x80 then (start, [Char.ofNat b])
  else if 0xC2 ≤ b && b ≤ 0xDF then ({ bits := b - 0xC0, missing := 1 }, [])
  else if b == 0xE0 then ({ bits := 0, missing := 2, low := 0xA0 }, [])
  else if b == 0xED then ({ bits := 0xD, missing := 2, high := 0x9F }, [])
  else if 0xE1 ≤ b && b ≤ 0xEF then ({ bits := b - 0xE0, missing := 2 }, [])
  else if b == 0xF0 then ({ bits := 0, missing := 3, low := 0x90 }, [])
  else if b == 0xF4 then ({ bits := 4, missing := 3, high := 0x8F }, [])
  else if 0xF1 ≤ b && b ≤ 0xF3 then ({ bits := b - 0xF0, missing := 3 }, [])
  else (start, [replacement])

/-- Takes one octet; the answer is the text that is now complete. -/
def step (s : Utf8) (b : Nat) : Utf8 × Text :=
  match s.missing with
  | 0 => lead b
  | n + 1 =>
    if s.low ≤ b && b ≤ s.high then
      let bits := s.bits * 64 + (b - 0x80)
      if n = 0 then (start, [Char.ofNat bits]) else ({ bits := bits, missing := n }, [])
    else
      let (s, t) := lead b
      (s, replacement :: t)

def feed (s : Utf8) : List Nat → Utf8 × Text
  | [] => (s, [])
  | b :: bs =>
    let (s, t) := s.step b
    let (s, u) := s.feed bs
    (s, t ++ u)

/-- What is left when nothing follows. -/
def finish (s : Utf8) : Text := if s.missing = 0 then [] else [replacement]

def decode (octets : List Nat) : Text :=
  let (s, t) := start.feed octets
  t ++ s.finish

end Utf8

def octetsOf (c : Char) : List Nat :=
  let n := c.toNat
  if n < 0x80 then [n]
  else if n < 0x800 then [0xC0 + n / 64, 0x80 + n % 64]
  else if n < 0x10000 then [0xE0 + n / 4096, 0x80 + n / 64 % 64, 0x80 + n % 64]
  else [0xF0 + n / 262144, 0x80 + n / 4096 % 64, 0x80 + n / 64 % 64, 0x80 + n % 64]

def octets (t : Text) : List Nat := t.flatMap octetsOf

end Refinery.Text
