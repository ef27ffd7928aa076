import Shapes.Json.Numeral

/-!
# JSON tokens

The scanner reads a text one character at a time and keeps the token that is
being read.  A string with an unpaired surrogate escape and a number too large
for a double are well-formed tokens without a value: whether they matter is
for the reader of the document to say.
-/

namespace Shapes

inductive JsonToken where
  | openBrace
  | closeBrace
  | openBracket
  | closeBracket
  | comma
  | colon
  | null
  | bool (value : Bool)
  | num (value : Option JsonNumber)
  | str (value : Option String)

namespace JsonToken

/-!
# Strings

A string is kept in pieces until it is complete, because an escape for half of a
surrogate pair is only judged together with its neighbour.
-/

/-- What one character or escape of a string contributes. -/
inductive Piece where
  | char (c : Char)
  | high (unit : Nat)
  | low (unit : Nat)

namespace Piece

/-- The contribution of an escape by four hexadecimal digits. -/
def ofUnit (unit : Nat) : Piece :=
  if 0xd800 ≤ unit ∧ unit < 0xdc00 then high unit
  else if 0xdc00 ≤ unit ∧ unit < 0xe000 then low unit
  else char (Char.ofNat unit)

/-- The text of the pieces, when every surrogate is half of a pair. -/
def text? (done : List Char) : List Piece -> Option String
  | [] => some (String.ofList done.reverse)
  | char c :: rest => text? (c :: done) rest
  | high h :: low l :: rest =>
      text? (Char.ofNat (0x10000 + (h - 0xd800) * 0x400 + (l - 0xdc00)) :: done) rest
  | _ => none

end Piece

def hexDigit? (c : Char) : Option Nat :=
  if c.isDigit then some (c.toNat - '0'.toNat)
  else if 'a' ≤ c ∧ c ≤ 'f' then some (c.toNat - 'a'.toNat + 10)
  else if 'A' ≤ c ∧ c ≤ 'F' then some (c.toNat - 'A'.toNat + 10)
  else none

def shortEscape? (c : Char) : Option Char :=
  if c = '"' ∨ c = '\\' ∨ c = '/' then some c
  else if c = 'b' then some '\x08'
  else if c = 'f' then some '\x0c'
  else if c = 'n' then some '\n'
  else if c = 'r' then some '\r'
  else if c = 't' then some '\t'
  else none

/-!
# The scanner

One step reads one character.  A word or a number ends at the first character
that cannot belong to it, which is then read again on its own.
-/

/-- The token being read; gathered parts are kept in reverse. -/
inductive Mode where
  | between
  | word (letters : List Char)
  | number (chars : List Char)
  | string (pieces : List Piece)
  | escape (pieces : List Piece)
  | unit (pieces : List Piece) (value count : Nat)

/-- The finished tokens, in reverse, and the one being read. -/
structure Scan where
  done : List JsonToken
  mode : Mode

namespace Scan

def start : Scan := ⟨[], .between⟩

def isSpace (c : Char) : Bool :=
  c = ' ' || c = '\n' || c = '\t' || c = '\r'

def isNumberChar (c : Char) : Bool :=
  c.isDigit || c = '-' || c = '+' || c = '.' || c = 'e' || c = 'E'

def word? (letters : List Char) : Option JsonToken :=
  if letters = ['n', 'u', 'l', 'l'] then some .null
  else if letters = ['t', 'r', 'u', 'e'] then some (.bool true)
  else if letters = ['f', 'a', 'l', 's', 'e'] then some (.bool false)
  else none

def open? (done : List JsonToken) (c : Char) : Option Scan :=
  if isSpace c then some ⟨done, .between⟩
  else if c = '\x7b' then some ⟨.openBrace :: done, .between⟩
  else if c = '\x7d' then some ⟨.closeBrace :: done, .between⟩
  else if c = '[' then some ⟨.openBracket :: done, .between⟩
  else if c = ']' then some ⟨.closeBracket :: done, .between⟩
  else if c = ',' then some ⟨.comma :: done, .between⟩
  else if c = ':' then some ⟨.colon :: done, .between⟩
  else if c = '"' then some ⟨done, .string []⟩
  else if c.isDigit || c = '-' then some ⟨done, .number [c]⟩
  else if c.isAlpha then some ⟨done, .word [c]⟩
  else none

/-- Finish a word or a number at a token boundary. -/
def close? (s : Scan) : Option (List JsonToken) :=
  match s.mode with
  | .between => some s.done
  | .word letters => (word? letters.reverse).map (· :: s.done)
  | .number chars =>
      (Numeral.ofChars? chars.reverse).map fun n => .num n.toNumber? :: s.done
  | _ => none

def step? (s : Scan) (c : Char) : Option Scan :=
  match s.mode with
  | .between => open? s.done c
  | .word letters =>
      if c.isAlpha then some ⟨s.done, .word (c :: letters)⟩
      else s.close?.bind (open? · c)
  | .number chars =>
      if isNumberChar c then some ⟨s.done, .number (c :: chars)⟩
      else s.close?.bind (open? · c)
  | .string pieces =>
      if c = '"' then some ⟨.str (Piece.text? [] pieces.reverse) :: s.done, .between⟩
      else if c = '\\' then some ⟨s.done, .escape pieces⟩
      else if c < ' ' then none
      else some ⟨s.done, .string (.char c :: pieces)⟩
  | .escape pieces =>
      if c = 'u' then some ⟨s.done, .unit pieces 0 0⟩
      else (shortEscape? c).map fun e => ⟨s.done, .string (.char e :: pieces)⟩
  | .unit pieces value count =>
      (hexDigit? c).map fun d =>
        let value := value * 16 + d
        if count = 3 then ⟨s.done, .string (Piece.ofUnit value :: pieces)⟩
        else ⟨s.done, .unit pieces value (count + 1)⟩

end Scan

/-- The tokens of a text, unless some part of it is no token. -/
def scan? (text : String) : Option (List JsonToken) := do
  let last <- text.toList.foldlM Scan.step? Scan.start
  let done <- last.close?
  return done.reverse

end JsonToken
end Shapes
