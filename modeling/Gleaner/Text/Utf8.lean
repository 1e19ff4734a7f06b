/-
Bytes and text. `Utf8.encode` writes text as UTF-8; `Utf8.decode` reads any bytes, putting one replacement character in
the place of every longest run of bytes that begins a character and does not complete it.
-/

namespace Gleaner.Utf8

abbrev Bytes := List UInt8

/-- stands for bytes that are no text -/
def replacement : Char := '\uFFFD'

/-- a byte that continues a character -/
def isContinuation (b : UInt8) : Bool := 0x80 ≤ b && b ≤ 0xBF

/-- the bounds of the second byte behind a first byte of a longer character, and the number of bytes behind the
second -/
def secondByte? (b : UInt8) : Option (UInt8 × UInt8 × Nat) :=
  if b < 0xC2 then none
  else if b ≤ 0xDF then some (0x80, 0xBF, 0)
  else if b = 0xE0 then some (0xA0, 0xBF, 1)
  else if b = 0xED then some (0x80, 0x9F, 1)
  else if b ≤ 0xEF then some (0x80, 0xBF, 1)
  else if b = 0xF0 then some (0x90, 0xBF, 2)
  else if b ≤ 0xF3 then some (0x80, 0xBF, 2)
  else if b = 0xF4 then some (0x80, 0x8F, 2)
  else none

/-- the bits a first byte contributes -/
def leadBits (b : UInt8) : Nat :=
  if b ≤ 0xDF then b.toNat - 0xC0 else if b ≤ 0xEF then b.toNat - 0xE0 else b.toNat - 0xF0

/-- takes up to `count` continuation bytes -/
def takeContinuations : Nat → Bytes → Bytes × Bytes
  | 0, bs => ([], bs)
  | _ + 1, [] => ([], [])
  | count + 1, b :: bs =>
    if isContinuation b then
      let (taken, rest) := takeContinuations count bs
      (b :: taken, rest)
    else ([], b :: bs)

/-- reads one character behind a first byte: the character, or the replacement if it is not complete, and the rest -/
def decodeLong (first : UInt8) (bs : Bytes) : Char × Bytes :=
  match secondByte? first, bs with
  | some (lo, hi, more), second :: rest =>
    if lo ≤ second && second ≤ hi then
      let (tail, after) := takeContinuations more rest
      if tail.length = more then
        let code := (second :: tail).foldl (fun n b => n * 64 + (b.toNat - 0x80)) (leadBits first)
        (Char.ofNat code, after)
      else (replacement, after)
    else (replacement, bs)
  | _, _ => (replacement, bs)

theorem takeContinuations_length (count : Nat) (bs : Bytes) :
    (takeContinuations count bs).2.length ≤ bs.length := by
  induction count generalizing bs with
  | zero => simp [takeContinuations]
  | succ n ih =>
    cases bs with
    | nil => simp [takeContinuations]
    | cons b bs =>
      have := ih bs
      by_cases h : isContinuation b
      · simp only [takeContinuations, h, if_true, List.length_cons]
        omega
      · simp [takeContinuations, h]

theorem decodeLong_length (first : UInt8) (bs : Bytes) : (decodeLong first bs).2.length ≤ bs.length := by
  unfold decodeLong
  split
  · next lo hi more second rest _ =>
    have := takeContinuations_length more rest
    split
    · dsimp only
      split <;> simp <;> omega
    · simp
  · simp

/-- decodes byte by byte; the characters read are kept in reverse -/
def decodeFrom (acc : List Char) : Bytes → List Char
  | [] => acc.reverse
  | b :: bs =>
    if b < 0x80 then decodeFrom (Char.ofNat b.toNat :: acc) bs
    else
      have := decodeLong_length b bs
      decodeFrom ((decodeLong b bs).1 :: acc) (decodeLong b bs).2
termination_by bs => bs.length

/-- the characters of any bytes -/
def decodeChars (bs : Bytes) : List Char := decodeFrom [] bs

/-- the text of any bytes -/
def decode (bs : Bytes) : String := String.ofList (decodeChars bs)

/-- the bytes of a character -/
def encodeChar (c : Char) : Bytes :=
  let n := c.toNat
  if n < 0x80 then [n.toUInt8]
  else if n < 0x800 then [(0xC0 + n / 64).toUInt8, (0x80 + n % 64).toUInt8]
  else if n < 0x10000 then [(0xE0 + n / 4096).toUInt8, (0x80 + n / 64 % 64).toUInt8, (0x80 + n % 64).toUInt8]
  else [(0xF0 + n / 262144).toUInt8, (0x80 + n / 4096 % 64).toUInt8, (0x80 + n / 64 % 64).toUInt8,
    (0x80 + n % 64).toUInt8]

/-- the bytes of a text -/
def encode (s : String) : Bytes := s.toList.flatMap encodeChar

/-- the text of bytes that are valid UTF-8, and nothing for others -/
def decode? (bs : Bytes) : Option String :=
  let s := decode bs
  if encode s == bs then some s else none

end Gleaner.Utf8
