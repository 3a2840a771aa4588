import Mathlib.Data.List.Basic
import Mathlib.Tactic.IntervalCases
/-!
# SHA-256

The hash function of FIPS 180-4 on byte lists, with 32-bit words as naturals below
`2 ^ 32`, and the two facts about `hexdigest` that a reader of a stored digest checks:
it has 64 characters and every one is a lower-case hexadecimal digit.
-/

namespace PowerFramework.Lib.Sha256

/-- The 64 round constants. -/
def roundConstants : List Nat := [
  0x428a2f98, 0x71374491, 0xb5c0fbcf, 0xe9b5dba5, 0x3956c25b, 0x59f111f1, 0x923f82a4, 0xab1c5ed5,
  0xd807aa98, 0x12835b01, 0x243185be, 0x550c7dc3, 0x72be5d74, 0x80deb1fe, 0x9bdc06a7, 0xc19bf174,
  0xe49b69c1, 0xefbe4786, 0x0fc19dc6, 0x240ca1cc, 0x2de92c6f, 0x4a7484aa, 0x5cb0a9dc, 0x76f988da,
  0x983e5152, 0xa831c66d, 0xb00327c8, 0xbf597fc7, 0xc6e00bf3, 0xd5a79147, 0x06ca6351, 0x14292967,
  0x27b70a85, 0x2e1b2138, 0x4d2c6dfc, 0x53380d13, 0x650a7354, 0x766a0abb, 0x81c2c92e, 0x92722c85,
  0xa2bfe8a1, 0xa81a664b, 0xc24b8b70, 0xc76c51a3, 0xd192e819, 0xd6990624, 0xf40e3585, 0x106aa070,
  0x19a4c116, 0x1e376c08, 0x2748774c, 0x34b0bcb5, 0x391c0cb3, 0x4ed8aa4a, 0x5b9cca4f, 0x682e6ff3,
  0x748f82ee, 0x78a5636f, 0x84c87814, 0x8cc70208, 0x90befffa, 0xa4506ceb, 0xbef9a3f7, 0xc67178f2]

def add32 (x y : Nat) : Nat := (x + y) % 0x100000000

def rotr (n x : Nat) : Nat := (x >>> n) ||| ((x <<< (32 - n)) % 0x100000000)

def ch (x y z : Nat) : Nat := (x &&& y) ^^^ ((x ^^^ 0xffffffff) &&& z)

def maj (x y z : Nat) : Nat := (x &&& y) ^^^ (x &&& z) ^^^ (y &&& z)

def bigSigma0 (x : Nat) : Nat := rotr 2 x ^^^ rotr 13 x ^^^ rotr 22 x

def bigSigma1 (x : Nat) : Nat := rotr 6 x ^^^ rotr 11 x ^^^ rotr 25 x

def smallSigma0 (x : Nat) : Nat := rotr 7 x ^^^ rotr 18 x ^^^ (x >>> 3)

def smallSigma1 (x : Nat) : Nat := rotr 17 x ^^^ rotr 19 x ^^^ (x >>> 10)

/-- The message schedule: `window` holds the next sixteen words. -/
def schedule : Nat → List Nat → List Nat
  | 0, _ => []
  | n + 1, window =>
      let next := add32
        (add32 (smallSigma1 (window.getD 14 0)) (window.getD 9 0))
        (add32 (smallSigma0 (window.getD 1 0)) (window.getD 0 0))
      window.getD 0 0 :: schedule n (window.tail ++ [next])

/-- The eight working words. -/
structure Words where
  (a b c d e f g h : Nat)

def Words.toList (w : Words) : List Nat := [w.a, w.b, w.c, w.d, w.e, w.f, w.g, w.h]

def initial : Words :=
  ⟨0x6a09e667, 0xbb67ae85, 0x3c6ef372, 0xa54ff53a, 0x510e527f, 0x9b05688c, 0x1f83d9ab, 0x5be0cd19⟩

def round (s : Words) (k w : Nat) : Words :=
  let t₁ := add32 (add32 (add32 s.h (bigSigma1 s.e)) (add32 (ch s.e s.f s.g) k)) w
  let t₂ := add32 (bigSigma0 s.a) (maj s.a s.b s.c)
  ⟨add32 t₁ t₂, s.a, s.b, s.c, add32 s.d t₁, s.e, s.f, s.g⟩

def rounds : Words → List Nat → List Nat → Words
  | s, k :: ks, w :: ws => rounds (round s k w) ks ws
  | s, _, _ => s

def compress (s : Words) (block : List Nat) : Words :=
  let r := rounds s roundConstants (schedule 64 block)
  ⟨add32 s.a r.a, add32 s.b r.b, add32 s.c r.c, add32 s.d r.d,
    add32 s.e r.e, add32 s.f r.f, add32 s.g r.g, add32 s.h r.h⟩

/-- Big-endian words of a byte list whose length is a multiple of four. -/
def bytesToWords : List Nat → List Nat
  | a :: b :: c :: d :: rest => (((a * 256 + b) * 256 + c) * 256 + d) :: bytesToWords rest
  | _ => []

/-- The `width` low bytes of `n`, most significant first. -/
def bigEndian : Nat → Nat → List Nat
  | 0, _ => []
  | width + 1, n => bigEndian width (n / 256) ++ [n % 256]

def pad (message : List Nat) : List Nat :=
  message ++ [0x80] ++ List.replicate ((119 - message.length % 64) % 64) 0 ++
    bigEndian 8 (8 * message.length)

def absorb : Nat → Words → List Nat → Words
  | 0, s, _ => s
  | n + 1, s, ws => absorb n (compress s (ws.take 16)) (ws.drop 16)

/-- The 32 bytes of the digest. -/
def digest (message : List UInt8) : List Nat :=
  let ws := bytesToWords (pad (message.map UInt8.toNat))
  (absorb (ws.length / 16) initial ws).toList.flatMap (bigEndian 4)

def hexDigit (n : Nat) : Char :=
  if n < 10 then Char.ofNat (48 + n) else Char.ofNat (87 + n)

/-- `hashlib.sha256(message).hexdigest()` -/
def hexdigest (message : List UInt8) : String :=
  String.ofList ((digest message).flatMap fun b => [hexDigit (b / 16), hexDigit (b % 16)])

example : hexdigest [0x61, 0x62, 0x63] =
    "ba7816bf8f01cfea414140de5dae2223b00361a396177a9cb410ff61f20015ad" := by
  decide +kernel

def isHexDigit (c : Char) : Bool :=
  (48 ≤ c.toNat && c.toNat ≤ 57) || (97 ≤ c.toNat && c.toNat ≤ 102)

theorem isHexDigit_hexDigit {n : Nat} (hn : n < 16) : isHexDigit (hexDigit n) = true := by
  interval_cases n <;> decide

@[simp] theorem length_bigEndian (width n : Nat) : (bigEndian width n).length = width := by
  induction width generalizing n with
  | zero => rfl
  | succ width ih => simp [bigEndian, ih]

theorem bigEndian_lt {width n b : Nat} (hb : b ∈ bigEndian width n) : b < 256 := by
  induction width generalizing n with
  | zero => simp [bigEndian] at hb
  | succ width ih =>
      rcases List.mem_append.mp hb with hleft | hright
      · exact ih hleft
      · have : b = n % 256 := by simpa using hright
        omega

theorem digest_lt {message : List UInt8} {b : Nat} (hb : b ∈ digest message) : b < 256 := by
  obtain ⟨w, _, hw⟩ := List.mem_flatMap.mp hb
  exact bigEndian_lt hw

theorem length_digest (message : List UInt8) : (digest message).length = 32 := by
  simp [digest, Words.toList, List.flatMap_cons]

theorem length_hexdigest (message : List UInt8) :
    (hexdigest message).toList.length = 64 := by
  have h : ∀ bs : List Nat,
      (bs.flatMap fun b => [hexDigit (b / 16), hexDigit (b % 16)]).length = 2 * bs.length := by
    intro bs
    induction bs with
    | nil => rfl
    | cons b bs ih => simp [List.flatMap_cons, ih]; omega
  simp [hexdigest, h, length_digest]

theorem hexdigest_ne_empty (message : List UInt8) : hexdigest message ≠ "" := by
  intro h
  have hlength := length_hexdigest message
  rw [h] at hlength
  cases hlength

theorem isHexDigit_of_mem_hexdigest {message : List UInt8} {c : Char}
    (hc : c ∈ (hexdigest message).toList) : isHexDigit c = true := by
  simp only [hexdigest, String.toList_ofList, List.mem_flatMap] at hc
  obtain ⟨b, hb, hc⟩ := hc
  have hlt := digest_lt hb
  have : c = hexDigit (b / 16) ∨ c = hexDigit (b % 16) := by simpa using hc
  rcases this with rfl | rfl
  · exact isHexDigit_hexDigit (by omega)
  · exact isHexDigit_hexDigit (by omega)

end PowerFramework.Lib.Sha256
