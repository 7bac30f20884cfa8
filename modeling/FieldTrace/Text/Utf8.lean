/-! # Decoding UTF-8

Every byte sequence decodes: each maximal part that begins a well-formed sequence without
completing it, and each byte that begins none, becomes one replacement character. Where text has to
be well-formed, `utf8Fault?` finds the first such part. -/

namespace FieldTrace.Text

/-- The replacement character. -/
def replacement : Char := Char.ofNat 0xFFFD

/-- A continuation byte. -/
def isContinuation (b : UInt8) : Bool := decide (0x80 ≤ b) && decide (b ≤ 0xBF)

/-- May `b` follow the lead byte of a three-byte sequence? Overlong forms and surrogates are out. -/
def followsThree (lead b : UInt8) : Bool :=
  isContinuation b && (lead != 0xE0 || decide (0xA0 ≤ b)) && (lead != 0xED || decide (b ≤ 0x9F))

/-- May `b` follow the lead byte of a four-byte sequence? -/
def followsFour (lead b : UInt8) : Bool :=
  isContinuation b && (lead != 0xF0 || decide (0x90 ≤ b)) && (lead != 0xF4 || decide (b ≤ 0x8F))

/-- The payload bits of a continuation byte. -/
def payload (b : UInt8) : Nat := b.toNat % 64

/-- The characters of a byte sequence. -/
def decodeBytes : List UInt8 → List Char
  | [] => []
  | a :: rest =>
    if a < 0x80 then Char.ofNat a.toNat :: decodeBytes rest
    else if decide (0xC2 ≤ a) && decide (a ≤ 0xDF) then
      match rest with
      | b :: rest' =>
        if isContinuation b then
          Char.ofNat (a.toNat % 32 * 64 + payload b) :: decodeBytes rest'
        else replacement :: decodeBytes (b :: rest')
      | [] => [replacement]
    else if decide (0xE0 ≤ a) && decide (a ≤ 0xEF) then
      match rest with
      | b :: rest' =>
        if followsThree a b then
          match rest' with
          | c :: rest'' =>
            if isContinuation c then
              Char.ofNat (a.toNat % 16 * 4096 + payload b * 64 + payload c) :: decodeBytes rest''
            else replacement :: decodeBytes (c :: rest'')
          | [] => [replacement]
        else replacement :: decodeBytes (b :: rest')
      | [] => [replacement]
    else if decide (0xF0 ≤ a) && decide (a ≤ 0xF4) then
      match rest with
      | b :: rest' =>
        if followsFour a b then
          match rest' with
          | c :: rest'' =>
            if isContinuation c then
              match rest'' with
              | d :: rest''' =>
                if isContinuation d then
                  Char.ofNat (a.toNat % 8 * 262144 + payload b * 4096 + payload c * 64 + payload d)
                    :: decodeBytes rest'''
                else replacement :: decodeBytes (d :: rest''')
              | [] => [replacement]
            else replacement :: decodeBytes (c :: rest'')
          | [] => [replacement]
        else replacement :: decodeBytes (b :: rest')
      | [] => [replacement]
    else replacement :: decodeBytes rest

/-! ### Faults -/

/-- What is wrong with bytes that do not decode. -/
inductive Utf8Reason where
  | start | continuation | ending
  deriving DecidableEq, Repr

/-- Bytes that do not decode. -/
structure Utf8Fault where
  position : Nat
  bytes : List UInt8
  reason : Utf8Reason
  deriving DecidableEq, Repr

/-- The number of bytes of a sequence with a lead byte, zero if none begins with it. -/
def sequenceSize (lead : UInt8) : Nat :=
  if lead < 0x80 then 1
  else if decide (0xC2 ≤ lead) && decide (lead ≤ 0xDF) then 2
  else if decide (0xE0 ≤ lead) && decide (lead ≤ 0xEF) then 3
  else if decide (0xF0 ≤ lead) && decide (lead ≤ 0xF4) then 4
  else 0

/-- May `b` follow the lead byte of a sequence? -/
def followsLead (lead b : UInt8) : Bool :=
  if lead < 0xE0 then isContinuation b
  else if lead < 0xF0 then followsThree lead b
  else followsFour lead b

/-- How many of the bytes after a lead byte belong to its sequence. -/
def followers (lead : UInt8) : List UInt8 → Nat
  | [] => 0
  | b :: bs => if followsLead lead b then 1 + (bs.takeWhile isContinuation).length else 0

/-- The first fault of a byte sequence, from a position on and after some bytes to pass over. -/
def faultFrom (position skip : Nat) : List UInt8 → Option Utf8Fault
  | [] => none
  | a :: rest =>
    if skip ≠ 0 then faultFrom (position + 1) (skip - 1) rest
    else
      let expected := (rest.take (sequenceSize a - 1))
      let found := followers a expected
      if sequenceSize a = 0 then some ⟨position, [a], .start⟩
      else if found + 1 = sequenceSize a then faultFrom (position + 1) found rest
      else some ⟨position, a :: expected.take found,
        if found = expected.length then .ending else .continuation⟩

/-- The first fault of a byte sequence. -/
def utf8Fault? (bytes : List UInt8) : Option Utf8Fault := faultFrom 0 0 bytes

namespace Utf8Fault

/-- A byte in hexadecimal. -/
def hexByte (b : UInt8) : String :=
  let digits := Nat.toDigits 16 b.toNat
  String.ofList ('0' :: 'x' :: List.replicate (2 - digits.length) '0' ++ digits)

/-- Where the bytes stand. -/
def place (f : Utf8Fault) : String :=
  match f.bytes with
  | [b] => "byte " ++ hexByte b ++ " in position " ++ toString f.position
  | bs => "bytes in position " ++ toString f.position ++ "-"
      ++ toString (f.position + bs.length - 1)

/-- What is wrong. -/
def message (f : Utf8Fault) : String :=
  "'utf-8' codec can't decode " ++ f.place ++ ": " ++
    match f.reason with
    | .start => "invalid start byte"
    | .continuation => "invalid continuation byte"
    | .ending => "unexpected end of data"

end Utf8Fault

end FieldTrace.Text
