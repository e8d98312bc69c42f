import ChainPeer.Text.Base45
import ChainPeer.Text.Emoji
import ChainPeer.Text.Positional
import ChainPeer.Text.Radix

/-!
# Texts that name their base

A text whose first character says how the byte string after it is written.
-/

namespace ChainPeer.Multibase

open Text Text.Radix

/-- Reads a byte string behind the character of its base. In bases 16, 32, 36 and 45 letters are of
either case, except in the base 32 made for people. -/
def decode? : List Char → Option Bytes
  | [] => none
  | base :: text =>
    let lower := text.map Char.toLower
    match base with
    | '\x00' => some (String.ofList text).toUTF8.toList
    | '0' => base2.decode? text
    | '7' => base8.decode? text
    | '9' => Positional.decode? "0123456789".toList text
    | 'f' | 'F' => base16.decode? lower
    | 'b' | 'B' => base32.decode? lower
    | 'c' | 'C' => base32.decodePadded? lower
    | 'v' | 'V' => base32Hex.decode? lower
    | 't' | 'T' => base32Hex.decodePadded? lower
    | 'h' => base32Z.decode? text
    | 'k' | 'K' => Positional.decode? "0123456789abcdefghijklmnopqrstuvwxyz".toList lower
    | 'R' => Base45.decode? text
    | 'z' => Positional.decode? Positional.base58 text
    | 'Z' => Positional.decode?
        "123456789abcdefghijkmnopqrstuvwxyzABCDEFGHJKLMNPQRSTUVWXYZ".toList text
    | 'm' => base64.decode? text
    | 'M' => base64.decodePadded? text
    | 'u' => base64Url.decode? text
    | 'U' => base64Url.decodePadded? text
    | '🚀' => Emoji.decode? text
    | _ => none

/-- A byte string in the base 64 that is safe in addresses, behind its character. -/
def encodeUrl (bytes : Bytes) : List Char :=
  'u' :: base64Url.encode bytes

end ChainPeer.Multibase
