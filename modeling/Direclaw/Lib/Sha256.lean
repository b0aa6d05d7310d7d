import Mathlib.Data.Nat.Notation

/-!
# SHA-256

The digest of FIPS 180-4 on lists of bytes: padding to blocks of sixty-four bytes,
the message schedule, and sixty-four rounds a block.
-/

namespace Direclaw.Lib.Sha256

abbrev Word := BitVec 32

/-- The first thirty-two bits of the fractional parts of the cube roots of the first
sixty-four primes. -/
def roundConstants : List Word :=
  [0x428a2f98, 0x71374491, 0xb5c0fbcf, 0xe9b5dba5, 0x3956c25b, 0x59f111f1, 0x923f82a4, 0xab1c5ed5,
    0xd807aa98, 0x12835b01, 0x243185be, 0x550c7dc3, 0x72be5d74, 0x80deb1fe, 0x9bdc06a7, 0xc19bf174,
    0xe49b69c1, 0xefbe4786, 0x0fc19dc6, 0x240ca1cc, 0x2de92c6f, 0x4a7484aa, 0x5cb0a9dc, 0x76f988da,
    0x983e5152, 0xa831c66d, 0xb00327c8, 0xbf597fc7, 0xc6e00bf3, 0xd5a79147, 0x06ca6351, 0x14292967,
    0x27b70a85, 0x2e1b2138, 0x4d2c6dfc, 0x53380d13, 0x650a7354, 0x766a0abb, 0x81c2c92e, 0x92722c85,
    0xa2bfe8a1, 0xa81a664b, 0xc24b8b70, 0xc76c51a3, 0xd192e819, 0xd6990624, 0xf40e3585, 0x106aa070,
    0x19a4c116, 0x1e376c08, 0x2748774c, 0x34b0bcb5, 0x391c0cb3, 0x4ed8aa4a, 0x5b9cca4f, 0x682e6ff3,
    0x748f82ee, 0x78a5636f, 0x84c87814, 0x8cc70208, 0x90befffa, 0xa4506ceb, 0xbef9a3f7, 0xc67178f2]

structure State where
  a : Word
  b : Word
  c : Word
  d : Word
  e : Word
  f : Word
  g : Word
  h : Word

/-- The square roots of the first eight primes, likewise. -/
def initial : State :=
  ⟨0x6a09e667, 0xbb67ae85, 0x3c6ef372, 0xa54ff53a, 0x510e527f, 0x9b05688c, 0x1f83d9ab, 0x5be0cd19⟩

def State.add (s t : State) : State :=
  ⟨s.a + t.a, s.b + t.b, s.c + t.c, s.d + t.d, s.e + t.e, s.f + t.f, s.g + t.g, s.h + t.h⟩

def State.words (s : State) : List Word := [s.a, s.b, s.c, s.d, s.e, s.f, s.g, s.h]

def rotr (x : Word) (n : ℕ) : Word := x >>> n ||| x <<< (32 - n)

def bigSigma0 (x : Word) : Word := rotr x 2 ^^^ rotr x 13 ^^^ rotr x 22
def bigSigma1 (x : Word) : Word := rotr x 6 ^^^ rotr x 11 ^^^ rotr x 25
def smallSigma0 (x : Word) : Word := rotr x 7 ^^^ rotr x 18 ^^^ x >>> 3
def smallSigma1 (x : Word) : Word := rotr x 17 ^^^ rotr x 19 ^^^ x >>> 10

def ch (x y z : Word) : Word := (x &&& y) ^^^ (~~~x &&& z)
def maj (x y z : Word) : Word := (x &&& y) ^^^ (x &&& z) ^^^ (y &&& z)

def round (s : State) (constant word : Word) : State :=
  let t₁ := s.h + bigSigma1 s.e + ch s.e s.f s.g + constant + word
  let t₂ := bigSigma0 s.a + maj s.a s.b s.c
  ⟨t₁ + t₂, s.a, s.b, s.c, s.d + t₁, s.e, s.f, s.g⟩

/-- The words of the schedule from a window of the last sixteen. -/
def schedule : ℕ → List Word → List Word
  | 0, window => window
  | n + 1, window =>
    let next := smallSigma1 (window.getD 14 0) + window.getD 9 0 +
      smallSigma0 (window.getD 1 0) + window.getD 0 0
    window.headD 0 :: schedule n (window.tail ++ [next])

def compress (s : State) (block : List Word) : State :=
  s.add (((roundConstants.zip (schedule 48 block)).foldl fun t kw => round t kw.1 kw.2) s)

/-! ## Bytes -/

def toWord (bytes : List UInt8) : Word :=
  bytes.foldl (fun w byte => w <<< 8 ||| BitVec.ofNat 32 byte.toNat) 0

def ofWord (w : Word) : List UInt8 :=
  [24, 16, 8, 0].map fun n => UInt8.ofNat (w >>> n).toNat

/-- The length in bits, big-endian, in eight bytes. -/
def lengthBytes (bits : ℕ) : List UInt8 :=
  [56, 48, 40, 32, 24, 16, 8, 0].map fun n => UInt8.ofNat (bits >>> n)

def pad (message : List UInt8) : List UInt8 :=
  let zeros := (64 - (message.length + 9) % 64) % 64
  message ++ 0x80 :: List.replicate zeros 0 ++ lengthBytes (8 * message.length)

/-- Cut into pieces of `n`; the fuel is the number of pieces. -/
def pieces {α : Type*} (n : ℕ) : ℕ → List α → List (List α)
  | 0, _ => []
  | fuel + 1, items => items.take n :: pieces n fuel (items.drop n)

def blocks (padded : List UInt8) : List (List Word) :=
  (pieces 64 (padded.length / 64) padded).map fun block => (pieces 4 16 block).map toWord

/-- The thirty-two bytes of the digest. -/
def digest (message : List UInt8) : List UInt8 :=
  (((blocks (pad message)).foldl compress initial).words).flatMap ofWord

/-- The digest of `abc`. -/
example : (digest [0x61, 0x62, 0x63]).take 4 = [0xba, 0x78, 0x16, 0xbf] := by decide +kernel

end Direclaw.Lib.Sha256
