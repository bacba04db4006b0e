import LandRecords.Base.Text

/-! SHA-256 over byte strings, and its hexadecimal digest of an encoded text.
The digest is sixty-four lower-case hexadecimal digits for every input; nothing
here says that digests of different inputs differ. -/
namespace LandRecords.Sha256

abbrev Word := Nat

def wrap (n : Nat) : Word := n % 4294967296

def rotateRight (x : Word) (k : Nat) : Word := (x >>> k) ||| wrap (x <<< (32 - k))

structure State where
  a : Word
  b : Word
  c : Word
  d : Word
  e : Word
  f : Word
  g : Word
  h : Word

def initial : State :=
  ⟨0x6a09e667, 0xbb67ae85, 0x3c6ef372, 0xa54ff53a,
    0x510e527f, 0x9b05688c, 0x1f83d9ab, 0x5be0cd19⟩

def roundConstants : List Word :=
  [0x428a2f98, 0x71374491, 0xb5c0fbcf, 0xe9b5dba5, 0x3956c25b, 0x59f111f1, 0x923f82a4, 0xab1c5ed5,
   0xd807aa98, 0x12835b01, 0x243185be, 0x550c7dc3, 0x72be5d74, 0x80deb1fe, 0x9bdc06a7, 0xc19bf174,
   0xe49b69c1, 0xefbe4786, 0x0fc19dc6, 0x240ca1cc, 0x2de92c6f, 0x4a7484aa, 0x5cb0a9dc, 0x76f988da,
   0x983e5152, 0xa831c66d, 0xb00327c8, 0xbf597fc7, 0xc6e00bf3, 0xd5a79147, 0x06ca6351, 0x14292967,
   0x27b70a85, 0x2e1b2138, 0x4d2c6dfc, 0x53380d13, 0x650a7354, 0x766a0abb, 0x81c2c92e, 0x92722c85,
   0xa2bfe8a1, 0xa81a664b, 0xc24b8b70, 0xc76c51a3, 0xd192e819, 0xd6990624, 0xf40e3585, 0x106aa070,
   0x19a4c116, 0x1e376c08, 0x2748774c, 0x34b0bcb5, 0x391c0cb3, 0x4ed8aa4a, 0x5b9cca4f, 0x682e6ff3,
   0x748f82ee, 0x78a5636f, 0x84c87814, 0x8cc70208, 0x90befffa, 0xa4506ceb, 0xbef9a3f7, 0xc67178f2]

def bigSigma0 (x : Word) : Word := rotateRight x 2 ^^^ rotateRight x 13 ^^^ rotateRight x 22
def bigSigma1 (x : Word) : Word := rotateRight x 6 ^^^ rotateRight x 11 ^^^ rotateRight x 25
def smallSigma0 (x : Word) : Word := rotateRight x 7 ^^^ rotateRight x 18 ^^^ (x >>> 3)
def smallSigma1 (x : Word) : Word := rotateRight x 17 ^^^ rotateRight x 19 ^^^ (x >>> 10)
def choose (x y z : Word) : Word := (x &&& y) ^^^ ((4294967295 - x) &&& z)
def majority (x y z : Word) : Word := (x &&& y) ^^^ (x &&& z) ^^^ (y &&& z)

def round (s : State) (constant word : Word) : State :=
  let t₁ := wrap (s.h + bigSigma1 s.e + choose s.e s.f s.g + constant + word)
  let t₂ := bigSigma0 s.a + majority s.a s.b s.c
  ⟨wrap (t₁ + t₂), s.a, s.b, s.c, wrap (s.d + t₁), s.e, s.f, s.g⟩

/-- The message schedule is kept as a window of the next sixteen words. -/
def slide : List Word → List Word
  | [w0, w1, w2, w3, w4, w5, w6, w7, w8, w9, w10, w11, w12, w13, w14, w15] =>
      [w1, w2, w3, w4, w5, w6, w7, w8, w9, w10, w11, w12, w13, w14, w15,
        wrap (smallSigma1 w14 + w9 + smallSigma0 w1 + w0)]
  | window => window

def rounds : List Word → List Word → State → State
  | [], _, s => s
  | constant :: constants, window, s =>
      rounds constants (slide window) (round s constant (window.headD 0))

def compress (s : State) (block : List Word) : State :=
  let t := rounds roundConstants block s
  ⟨wrap (s.a + t.a), wrap (s.b + t.b), wrap (s.c + t.c), wrap (s.d + t.d),
    wrap (s.e + t.e), wrap (s.f + t.f), wrap (s.g + t.g), wrap (s.h + t.h)⟩

def absorb : Nat → State → List Word → State
  | 0, s, _ => s
  | blocks + 1, s, words => absorb blocks (compress s (words.take 16)) (words.drop 16)

def bigEndian : List UInt8 → List Word
  | a :: b :: c :: d :: rest =>
      (((a.toNat * 256 + b.toNat) * 256 + c.toNat) * 256 + d.toNat) :: bigEndian rest
  | _ => []

/-- Zero bytes between the end marker and the eight length bytes. -/
def zeroCount (length : Nat) : Nat := (119 - length % 64) % 64

def lengthBytes (length : Nat) : List UInt8 :=
  (List.range 8).reverse.map fun i => UInt8.ofNat (8 * length / 256 ^ i)

def pad (message : List UInt8) : List UInt8 :=
  message ++ 0x80 :: List.replicate (zeroCount message.length) 0 ++ lengthBytes message.length

def digest (message : List UInt8) : State :=
  let padded := pad message
  absorb (padded.length / 64) initial (bigEndian padded)

def hexWord (w : Word) : Text := Text.numeral 16 8 w

/-- `text.encode()`: the UTF-8 bytes of a text. -/
def encode (text : Text) : List UInt8 := text.flatMap String.utf8EncodeChar

/-- `hashlib.sha256(text.encode()).hexdigest()`. -/
def hexdigest (text : Text) : Text :=
  let s := digest (encode text)
  [s.a, s.b, s.c, s.d, s.e, s.f, s.g, s.h].flatMap hexWord

@[simp] theorem length_hexdigest (text : Text) : (hexdigest text).length = 64 := by
  simp [hexdigest, hexWord]

theorem hexdigest_mem {text : Text} {c : Char} (h : c ∈ hexdigest text) : c ∈ Text.digits := by
  obtain ⟨w, -, hc⟩ := List.mem_flatMap.mp h
  exact Text.numeral_mem (by decide) (by decide) hc

theorem hexdigest_ne_nil (text : Text) : hexdigest text ≠ [] := by
  intro h
  have hlength := length_hexdigest text
  rw [h] at hlength
  simp at hlength

set_option maxRecDepth 10000 in
example : hexdigest "abc".toList =
    "ba7816bf8f01cfea414140de5dae2223b00361a396177a9cb410ff61f20015ad".toList := by
  decide +kernel

-- No proof but an evaluation by the kernel unfolds a digest.
attribute [irreducible] hexdigest

end LandRecords.Sha256
