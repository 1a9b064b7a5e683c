/-
**The SHA-1 digest of a byte string.**

The message is padded to whole blocks of 64 bytes, each block is spread over a schedule of eighty
words, and the schedule is mixed into a state of five words, whose twenty bytes are the digest.

Main definitions:

* `Digest.padding`, `Digest.blocks` — the padded message, cut into blocks of sixteen words;
* `Digest.schedule`, `Digest.compress` — one block's schedule, and its effect on the state;
* `Digest.sha1` — **the digest**.

Main results:

* `Digest.length_sha1` — a digest has twenty bytes.
-/

import RevisionStore.Bytes

set_option autoImplicit false

namespace RevisionStore.Digest

/-! ### Words -/

/-- The bits of a word, turned round to the left by `n` places. -/
def rotateLeft (w n : UInt32) : UInt32 := (w <<< n) ||| (w >>> (32 - n))

/-- The four bytes of a word, high byte first. -/
def wordBytes (w : UInt32) : Bytes :=
  [(w >>> 24).toUInt8, (w >>> 16).toUInt8, (w >>> 8).toUInt8, w.toUInt8]

@[simp] theorem length_wordBytes (w : UInt32) : (wordBytes w).length = 4 := rfl

/-- The words that the bytes spell, four at a time; an incomplete last word is dropped. -/
def words : Bytes → List UInt32
  | a :: b :: c :: d :: rest =>
    ((a.toUInt32 <<< 24) ||| (b.toUInt32 <<< 16) ||| (c.toUInt32 <<< 8) ||| d.toUInt32)
      :: words rest
  | _ => []

/-! ### Blocks -/

/-- What is appended to a message of `length` bytes: a one bit, zeros up to eight bytes before the
end of a block, and the length in bits. -/
def padding (length : Nat) : Bytes :=
  let bits := UInt64.ofNat (8 * length)
  (0x80 : UInt8) :: List.replicate ((119 - length % 64) % 64) 0
    ++ wordBytes (bits >>> 32).toUInt32 ++ wordBytes bits.toUInt32

/-- The words, sixteen at a time. -/
def blocks (ws : List UInt32) : List (List UInt32) :=
  match ws with
  | [] => []
  | w :: ws => (w :: ws.take 15) :: blocks (ws.drop 15)
termination_by ws.length
decreasing_by simp only [List.length_drop, List.length_cons]; omega

/-- The eighty words that a block is spread over. -/
def schedule (block : List UInt32) : Array UInt32 :=
  (List.range 64).foldl
    (fun ws i =>
      let mixed := ws.getD (i + 13) 0 ^^^ ws.getD (i + 8) 0 ^^^ ws.getD (i + 2) 0 ^^^ ws.getD i 0
      ws.push (rotateLeft mixed 1))
    block.toArray

/-! ### The state -/

/-- The five words that are carried from block to block. -/
structure State where
  a : UInt32
  b : UInt32
  c : UInt32
  d : UInt32
  e : UInt32

/-- The state before the first block. -/
def State.initial : State := ⟨0x67452301, 0xEFCDAB89, 0x98BADCFE, 0x10325476, 0xC3D2E1F0⟩

/-- Round `i`, with the scheduled word `w`. -/
def State.round (s : State) (i : Nat) (w : UInt32) : State :=
  let (mix, constant) :=
    if i < 20 then ((s.b &&& s.c) ||| (~~~s.b &&& s.d), (0x5A827999 : UInt32))
    else if i < 40 then (s.b ^^^ s.c ^^^ s.d, 0x6ED9EBA1)
    else if i < 60 then ((s.b &&& s.c) ||| (s.b &&& s.d) ||| (s.c &&& s.d), 0x8F1BBCDC)
    else (s.b ^^^ s.c ^^^ s.d, 0xCA62C1D6)
  ⟨rotateLeft s.a 5 + mix + s.e + constant + w, s.a, rotateLeft s.b 30, s.c, s.d⟩

/-- The state after one more block. -/
def compress (s : State) (block : List UInt32) : State :=
  let ws := schedule block
  let t := (List.range 80).foldl (fun t i => t.round i (ws.getD i 0)) s
  ⟨s.a + t.a, s.b + t.b, s.c + t.c, s.d + t.d, s.e + t.e⟩

/-- The bytes of a state. -/
def State.bytes (s : State) : Bytes :=
  wordBytes s.a ++ wordBytes s.b ++ wordBytes s.c ++ wordBytes s.d ++ wordBytes s.e

@[simp] theorem State.length_bytes (s : State) : s.bytes.length = 20 := rfl

/-- The SHA-1 digest of a message. -/
def sha1 (message : Bytes) : Bytes :=
  ((blocks (words (message ++ padding message.length))).foldl compress State.initial).bytes

@[simp] theorem length_sha1 (message : Bytes) : (sha1 message).length = 20 := rfl

end RevisionStore.Digest
