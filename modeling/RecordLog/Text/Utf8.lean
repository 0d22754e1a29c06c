import RecordLog.Bytes

/-!
# UTF-8

One machine reads any byte string as a list of segments: a character, a run of bytes that no
character begins with, or a character that the end of the input cuts short. A run is as long
as possible while it could still have become a character, so a flaw is reported where it is
found, and the reading goes on behind it. Strict and lossy decoding are two ways to fold the
same segments.
-/

namespace RecordLog.Text.Utf8

/-- The bytes of one character, by the number of bits that its code point needs. -/
def encodeChar (c : Char) : Bytes :=
  let n := c.toNat
  if n < 0x80 then [UInt8.ofNat n]
  else if n < 0x800 then [UInt8.ofNat (0xC0 + n / 64), UInt8.ofNat (0x80 + n % 64)]
  else if n < 0x10000 then
    [UInt8.ofNat (0xE0 + n / 4096), UInt8.ofNat (0x80 + n / 64 % 64),
     UInt8.ofNat (0x80 + n % 64)]
  else
    [UInt8.ofNat (0xF0 + n / 262144), UInt8.ofNat (0x80 + n / 4096 % 64),
     UInt8.ofNat (0x80 + n / 64 % 64), UInt8.ofNat (0x80 + n % 64)]

def encode (s : String) : Bytes := s.toList.flatMap encodeChar

/-- What the first byte of a longer character says about the bytes behind it: how many there
are, and the range of the next one, which rules out spellings that are too long, surrogates and
code points past the last one. -/
structure Lead where
  more : Nat
  low : UInt8
  high : UInt8
  deriving DecidableEq

/-- The lead bytes of characters beyond ASCII. -/
def lead? (b : UInt8) : Option Lead :=
  if 0xC2 ≤ b && b ≤ 0xDF then some ⟨1, 0x80, 0xBF⟩
  else if b == 0xE0 then some ⟨2, 0xA0, 0xBF⟩
  else if b == 0xED then some ⟨2, 0x80, 0x9F⟩
  else if 0xE1 ≤ b && b ≤ 0xEF then some ⟨2, 0x80, 0xBF⟩
  else if b == 0xF0 then some ⟨3, 0x90, 0xBF⟩
  else if 0xF1 ≤ b && b ≤ 0xF3 then some ⟨3, 0x80, 0xBF⟩
  else if b == 0xF4 then some ⟨3, 0x80, 0x8F⟩
  else none

/-- Whether a byte may stand at the third or fourth place of a character. -/
def isTrailing (b : UInt8) : Bool := 0x80 ≤ b && b ≤ 0xBF

/-- The six bits that a byte behind the first one carries. -/
def payload (b : UInt8) : Nat := b.toNat % 64

/-- A piece of a byte string that is read as UTF-8. -/
inductive Segment where
  | char (c : Char)
  /-- That many bytes that begin no character. -/
  | invalid (size : Nat)
  /-- All that is left is the beginning of a character. -/
  | incomplete
  deriving DecidableEq

def segments : Bytes → List Segment
  | [] => []
  | a :: r =>
    if a < 0x80 then .char (Char.ofNat a.toNat) :: segments r
    else
      match lead? a with
      | none => .invalid 1 :: segments r
      | some lead =>
        match r with
        | [] => [.incomplete]
        | b :: r₂ =>
          if lead.low ≤ b && b ≤ lead.high then
            if lead.more = 1 then
              .char (Char.ofNat (a.toNat % 32 * 64 + payload b)) :: segments r₂
            else
              match r₂ with
              | [] => [.incomplete]
              | c :: r₃ =>
                if isTrailing c then
                  if lead.more = 2 then
                    .char (Char.ofNat (a.toNat % 16 * 4096 + payload b * 64 + payload c)) ::
                      segments r₃
                  else
                    match r₃ with
                    | [] => [.incomplete]
                    | d :: r₄ =>
                      if isTrailing d then
                        .char (Char.ofNat (a.toNat % 8 * 262144 + payload b * 4096 +
                          payload c * 64 + payload d)) :: segments r₄
                      else .invalid 3 :: segments (d :: r₄)
                else .invalid 2 :: segments (c :: r₃)
          else .invalid 1 :: segments (b :: r₂)

/-- Why a byte string is not UTF-8, and the index of the first byte that does not fit. -/
inductive Flaw where
  | invalid (size index : Nat)
  | incomplete (index : Nat)
  deriving DecidableEq

def Flaw.message : Flaw → String
  | .invalid size index => s!"invalid utf-8 sequence of {size} bytes from index {index}"
  | .incomplete index => s!"incomplete utf-8 byte sequence from index {index}"

/-- The characters of segments that start at a given index, up to the first flaw. -/
def strict : Nat → List Segment → Except Flaw (List Char)
  | _, [] => .ok []
  | index, .char c :: rest => (c :: ·) <$> strict (index + (encodeChar c).length) rest
  | index, .invalid size :: _ => .error (.invalid size index)
  | index, .incomplete :: _ => .error (.incomplete index)

/-- The text that the bytes encode, or the first flaw in them. -/
def decode (data : Bytes) : Except Flaw String :=
  String.ofList <$> strict 0 (segments data)

/-- The text with every flaw replaced by one replacement character. -/
def decodeLossy (data : Bytes) : String :=
  String.ofList <| (segments data).map fun
    | .char c => c
    | .invalid _ | .incomplete => '\uFFFD'

end RecordLog.Text.Utf8
