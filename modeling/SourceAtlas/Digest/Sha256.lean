/-
# Digests

The SHA-256 digest of bytes, from which the short digests of configurations are taken.
-/

import SourceAtlas.Text.Quoted

namespace SourceAtlas.Digest

/-- The constants of the sixty-four rounds. -/
def roundConstants : List UInt32 :=
  [0x428a2f98, 0x71374491, 0xb5c0fbcf, 0xe9b5dba5, 0x3956c25b, 0x59f111f1, 0x923f82a4, 0xab1c5ed5,
    0xd807aa98, 0x12835b01, 0x243185be, 0x550c7dc3, 0x72be5d74, 0x80deb1fe, 0x9bdc06a7, 0xc19bf174,
    0xe49b69c1, 0xefbe4786, 0x0fc19dc6, 0x240ca1cc, 0x2de92c6f, 0x4a7484aa, 0x5cb0a9dc, 0x76f988da,
    0x983e5152, 0xa831c66d, 0xb00327c8, 0xbf597fc7, 0xc6e00bf3, 0xd5a79147, 0x06ca6351, 0x14292967,
    0x27b70a85, 0x2e1b2138, 0x4d2c6dfc, 0x53380d13, 0x650a7354, 0x766a0abb, 0x81c2c92e, 0x92722c85,
    0xa2bfe8a1, 0xa81a664b, 0xc24b8b70, 0xc76c51a3, 0xd192e819, 0xd6990624, 0xf40e3585, 0x106aa070,
    0x19a4c116, 0x1e376c08, 0x2748774c, 0x34b0bcb5, 0x391c0cb3, 0x4ed8aa4a, 0x5b9cca4f, 0x682e6ff3,
    0x748f82ee, 0x78a5636f, 0x84c87814, 0x8cc70208, 0x90befffa, 0xa4506ceb, 0xbef9a3f7, 0xc67178f2]

/-- The eight words that are mixed. -/
structure Words where
  a : UInt32
  b : UInt32
  c : UInt32
  d : UInt32
  e : UInt32
  f : UInt32
  g : UInt32
  h : UInt32

def initialWords : Words :=
  { a := 0x6a09e667, b := 0xbb67ae85, c := 0x3c6ef372, d := 0xa54ff53a, e := 0x510e527f
    f := 0x9b05688c, g := 0x1f83d9ab, h := 0x5be0cd19 }

def rotateRight (x : UInt32) (n : UInt32) : UInt32 := (x >>> n) ||| (x <<< (32 - n))

/-- The bytes with a mark, zeros and their length in bits after them, so that blocks come out
even. -/
def padded (bytes : List UInt8) : List UInt8 :=
  let bits := 8 * bytes.length
  let zeros := (119 - bytes.length % 64) % 64
  let lengthBytes := (List.range 8).map fun i => UInt8.ofNat (bits / Nat.pow 256 (7 - i) % 256)
  bytes ++ 0x80 :: (List.replicate zeros 0 ++ lengthBytes)

def wordOf (a b c d : UInt8) : UInt32 :=
  (a.toUInt32 <<< 24) ||| (b.toUInt32 <<< 16) ||| (c.toUInt32 <<< 8) ||| d.toUInt32

def wordsOf : List UInt8 → List UInt32
  | a :: b :: c :: d :: rest => wordOf a b c d :: wordsOf rest
  | _ => []

/-- The next word of the schedule, which is given backwards. -/
def nextScheduled (backwards : List UInt32) : UInt32 :=
  let at_ (i : Nat) : UInt32 := backwards.getD (i - 1) 0
  let x := at_ 15
  let y := at_ 2
  let s0 := rotateRight x 7 ^^^ rotateRight x 18 ^^^ (x >>> 3)
  let s1 := rotateRight y 17 ^^^ rotateRight y 19 ^^^ (y >>> 10)
  at_ 16 + s0 + at_ 7 + s1

def schedule (block : List UInt32) : List UInt32 :=
  ((List.range 48).foldl (fun backwards _ => nextScheduled backwards :: backwards)
    block.reverse).reverse

def mixRound (w : Words) (input : UInt32 × UInt32) : Words :=
  let s1 := rotateRight w.e 6 ^^^ rotateRight w.e 11 ^^^ rotateRight w.e 25
  let choice := (w.e &&& w.f) ^^^ (w.e.complement &&& w.g)
  let t1 := w.h + s1 + choice + input.1 + input.2
  let s0 := rotateRight w.a 2 ^^^ rotateRight w.a 13 ^^^ rotateRight w.a 22
  let majority := (w.a &&& w.b) ^^^ (w.a &&& w.c) ^^^ (w.b &&& w.c)
  { a := t1 + s0 + majority, b := w.a, c := w.b, d := w.c, e := w.d + t1, f := w.e, g := w.f
    h := w.g }

def mixBlock (w : Words) (block : List UInt32) : Words :=
  let v := (roundConstants.zip (schedule block)).foldl mixRound w
  { a := w.a + v.a, b := w.b + v.b, c := w.c + v.c, d := w.d + v.d, e := w.e + v.e, f := w.f + v.f
    g := w.g + v.g, h := w.h + v.h }

/-- Cuts words into a number of blocks of sixteen. -/
def blocks : Nat → List UInt32 → List (List UInt32)
  | 0, _ => []
  | count + 1, words => words.take 16 :: blocks count (words.drop 16)

def sha256 (bytes : List UInt8) : List UInt32 :=
  let words := wordsOf (padded bytes)
  let w := (blocks (words.length / 16) words).foldl mixBlock initialWords
  [w.a, w.b, w.c, w.d, w.e, w.f, w.g, w.h]

/-- How many hexadecimal digits a short digest has. -/
def shortLength : Nat := 16

def shortDigest (text : String) : String :=
  let hex := (sha256 text.toUTF8.toList).flatMap fun w => Text.hexDigits 8 w.toNat
  String.ofList (hex.take shortLength)

end SourceAtlas.Digest
