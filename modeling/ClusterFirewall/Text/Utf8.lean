/-!
# Bytes and text

Files and diagnostics arrive as bytes. Files must be UTF-8; in diagnostics every longest start of a
character that breaks off becomes one replacement character.
-/

namespace ClusterFirewall.Text

/-- The character that stands for bytes that are no text. -/
def replacement : Char := '\uFFFD'

/-- Whether a byte continues a character. -/
def isContinuation (b : UInt8) : Bool := 0x80 ≤ b && b ≤ 0xBF

/-- The second bytes that may follow the first byte of a character of three bytes. -/
def secondOfThree (a b : UInt8) : Bool :=
  if a == 0xE0 then 0xA0 ≤ b && b ≤ 0xBF
  else if a == 0xED then 0x80 ≤ b && b ≤ 0x9F
  else isContinuation b

/-- The second bytes that may follow the first byte of a character of four bytes. -/
def secondOfFour (a b : UInt8) : Bool :=
  if a == 0xF0 then 0x90 ≤ b && b ≤ 0xBF
  else if a == 0xF4 then 0x80 ≤ b && b ≤ 0x8F
  else isContinuation b

/-- The low six bits of a continuation byte. -/
def payload (b : UInt8) : Nat := b.toNat % 64

/-- Reads bytes as UTF-8, with a replacement character for every broken start of a character. -/
def decodeLossyChars : List UInt8 → List Char
  | [] => []
  | a :: rest =>
    if a < 0x80 then Char.ofNat a.toNat :: decodeLossyChars rest
    else if 0xC2 ≤ a && a ≤ 0xDF then
      match rest with
      | b :: rest' =>
        if isContinuation b then
          Char.ofNat (a.toNat % 32 * 64 + payload b) :: decodeLossyChars rest'
        else replacement :: decodeLossyChars (b :: rest')
      | [] => [replacement]
    else if 0xE0 ≤ a && a ≤ 0xEF then
      match rest with
      | b :: rest' =>
        if secondOfThree a b then
          match rest' with
          | c :: rest'' =>
            if isContinuation c then
              Char.ofNat (a.toNat % 16 * 4096 + payload b * 64 + payload c) ::
                decodeLossyChars rest''
            else replacement :: decodeLossyChars (c :: rest'')
          | [] => [replacement]
        else replacement :: decodeLossyChars (b :: rest')
      | [] => [replacement]
    else if 0xF0 ≤ a && a ≤ 0xF4 then
      match rest with
      | b :: rest' =>
        if secondOfFour a b then
          match rest' with
          | c :: rest'' =>
            if isContinuation c then
              match rest'' with
              | d :: rest''' =>
                if isContinuation d then
                  Char.ofNat
                      (a.toNat % 8 * 262144 + payload b * 4096 + payload c * 64 + payload d) ::
                    decodeLossyChars rest'''
                else replacement :: decodeLossyChars (d :: rest''')
              | [] => [replacement]
            else replacement :: decodeLossyChars (c :: rest'')
          | [] => [replacement]
        else replacement :: decodeLossyChars (b :: rest')
      | [] => [replacement]
    else replacement :: decodeLossyChars rest

/-- The text of bytes, broken characters replaced. -/
def decodeLossy (bytes : ByteArray) : String := String.ofList (decodeLossyChars bytes.toList)

/-- The text of bytes, if they are UTF-8. -/
def decode? (bytes : ByteArray) : Option String := String.fromUTF8? bytes

end ClusterFirewall.Text
