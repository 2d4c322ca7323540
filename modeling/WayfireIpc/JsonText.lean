/-
# The texts of jsoncpp

How jsoncpp writes a value with the settings of `json_to_string`: two blanks for each level, a
blank behind a colon, and each element and member on a line of its own.  jsoncpp is outside the
repository, and no result depends on these texts; they are what concrete runs send.
-/
import WayfireIpc.Protocol

namespace WayfireIpc

namespace Json

/-- The hexadecimal digit of a number below 16. -/
def hexDigit (n : ℕ) : UInt8 := (if n < 10 then '0'.toNat + n else 'a'.toNat + (n - 10)).toUInt8

/-- How a byte is written in a string, with `emitUTF8`. -/
def escapeByte (b : UInt8) : Buf :=
  if b = '"'.toUInt8 then ascii "\\\""
  else if b = '\\'.toUInt8 then ascii "\\\\"
  else if b = 8 then ascii "\\b"
  else if b = 12 then ascii "\\f"
  else if b = '\n'.toUInt8 then ascii "\\n"
  else if b = '\r'.toUInt8 then ascii "\\r"
  else if b = '\t'.toUInt8 then ascii "\\t"
  else if b < 32 then ascii "\\u00" ++ [hexDigit (b.toNat / 16), hexDigit (b.toNat % 16)]
  else [b]

/-- A string in quotes. -/
def quoted (s : String) : Buf := ascii "\"" ++ (ascii s).flatMap escapeByte ++ ascii "\""

/-- The beginning of a line at a level. -/
def newLine (level : ℕ) : Buf := ascii "\n" ++ List.replicate (2 * level) ' '.toUInt8

/-- What stands behind an element in front of others. -/
def comma {α : Type} (rest : List α) : Buf := if rest.isEmpty then [] else ascii ","

mutual

/-- A value at a level; `onLine` tells that its line has been begun. -/
def styled : Json → ℕ → Bool → Buf
  | .null, _, _ => ascii "null"
  | .bool b, _, _ => ascii (if b then "true" else "false")
  | .int i, _, _ => ascii (toString i)
  | .real numeral, _, _ => ascii numeral
  | .str s, _, _ => quoted s
  | .arr [], _, _ => ascii "[]"
  | .arr (x :: xs), level, onLine =>
    (if onLine then [] else newLine level) ++ ascii "[" ++ styledElements (x :: xs) (level + 1)
      ++ newLine level ++ ascii "]"
  | .obj [], _, _ => ascii "\x7b\x7d"
  | .obj (m :: ms), level, onLine =>
    (if onLine then [] else newLine level) ++ ascii "\x7b" ++ styledMembers (m :: ms) (level + 1)
      ++ newLine level ++ ascii "\x7d"

/-- The elements of an array. -/
def styledElements : List Json → ℕ → Buf
  | [], _ => []
  | x :: xs, level => newLine level ++ styled x level true ++ comma xs ++ styledElements xs level

/-- The members of an object. -/
def styledMembers : List (String × Json) → ℕ → Buf
  | [], _ => []
  | m :: ms, level => newLine level ++ styledMember m level ++ comma ms ++ styledMembers ms level

/-- A member of an object. -/
def styledMember : String × Json → ℕ → Buf
  | (name, v), level => quoted name ++ ascii ": " ++ styled v level false

end

/-- `Json::writeString`. -/
def writeString (root : Json) : Buf := styled root 0 true

/-- `json::json_to_string`. -/
def text : Json → Buf
  | .str s => ascii s
  | .null => writeString (.obj [])
  | root => writeString root

example : (Json.obj [("first", .bool false), ("payload", .str "")]).text
    = ascii "\x7b\n  \"first\": false,\n  \"payload\": \"\"\n\x7d" := by decide

end Json

end WayfireIpc
