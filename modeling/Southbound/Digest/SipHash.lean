/-!
# SipHash

The keyed digest SipHash-1-3 of a list of octets: one round for each word of
eight octets, three at the end.  The last word holds the octets that are left
over and, in its highest octet, the number of octets modulo 256.
-/

namespace Southbound.SipHash

/-- The four words of the state of the hash. -/
structure State where
  v0 : UInt64
  v1 : UInt64
  v2 : UInt64
  v3 : UInt64

/-- A word rotated to the left, by less than its width and more than zero. -/
def rotate (x : UInt64) (n : UInt64) : UInt64 := (x <<< n) ||| (x >>> (64 - n))

def State.round (s : State) : State :=
  let a0 := s.v0 + s.v1
  let a1 := rotate s.v1 13 ^^^ a0
  let a2 := s.v2 + s.v3
  let a3 := rotate s.v3 16 ^^^ a2
  let b0 := rotate a0 32 + a3
  let b3 := rotate a3 21 ^^^ b0
  let b2 := a2 + a1
  let b1 := rotate a1 17 ^^^ b2
  ⟨b0, b1, rotate b2 32, b3⟩

def State.absorb (s : State) (word : UInt64) : State :=
  let t := { s with v3 := s.v3 ^^^ word }.round
  { t with v0 := t.v0 ^^^ word }

def State.start (k0 k1 : UInt64) : State :=
  ⟨k0 ^^^ 0x736f6d6570736575, k1 ^^^ 0x646f72616e646f6d,
    k0 ^^^ 0x6c7967656e657261, k1 ^^^ 0x7465646279746573⟩

/-- A word of octets, the lowest first. -/
def word (octets : List UInt8) : UInt64 :=
  octets.foldr (fun b w => w <<< 8 ||| b.toUInt64) 0

/-- The state after all words, of which the last has the number of octets in
its highest octet. -/
def State.absorbAll (s : State) (length : Nat) : List UInt8 → State
  | a :: b :: c :: d :: e :: f :: g :: h :: rest =>
    (s.absorb (word [a, b, c, d, e, f, g, h])).absorbAll length rest
  | rest => s.absorb (word rest ||| (UInt64.ofNat length <<< 56))

/-- The digest of octets under a key. -/
def digest (k0 k1 : UInt64) (octets : List UInt8) : UInt64 :=
  let s := (State.start k0 k1).absorbAll octets.length octets
  let t := { s with v2 := s.v2 ^^^ 0xff }.round.round.round
  t.v0 ^^^ t.v1 ^^^ t.v2 ^^^ t.v3

end Southbound.SipHash
