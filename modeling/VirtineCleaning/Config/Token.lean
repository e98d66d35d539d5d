import VirtineCleaning.Text.Class

/-!
# Tokens of a configuration document

A configuration document is JSON whose values are natural numbers and texts. Its tokens are marks, numbers and texts;
a character that continues no token ends the reading, so every other kind of value is refused here.
-/

namespace VirtineCleaning.Config

/-- A token of a document. -/
inductive Token where
  | mark (c : Char)
  | number (n : Nat)
  | text (s : String)
deriving DecidableEq, Repr

namespace Token

/-- What the reader is in the middle of. Characters of a text are held last first. -/
inductive Mode where
  | blank
  | number (n : Nat)
  | text (content : List Char)
  /-- After a backslash. -/
  | escape (content : List Char)
  /-- Inside the four digits of a code unit; a high surrogate that came before waits for its low one. -/
  | code (content : List Char) (high : Option Nat) (left value : Nat)
  /-- After a high surrogate. -/
  | surrogate (content : List Char) (high : Nat)
  /-- After a high surrogate and a backslash. -/
  | surrogateEscape (content : List Char) (high : Nat)

/-- The tokens read so far, last first, and what comes next. -/
structure Reader where
  tokens : List Token := []
  mode : Mode := .blank

/-- The character that a short escape stands for. -/
def shortEscape? : Char → Option Char
  | '"' => some '"'
  | '\\' => some '\\'
  | '/' => some '/'
  | 'b' => some '\x08'
  | 'f' => some '\x0c'
  | 'n' => some '\n'
  | 'r' => some '\r'
  | 't' => some '\t'
  | _ => none

/-- Takes a character between tokens. -/
def startToken (tokens : List Token) (c : Char) : Option Reader :=
  if c = ' ' ∨ c = '\n' ∨ c = '\t' ∨ c = '\r' then some ⟨tokens, .blank⟩
  else if c = '[' ∨ c = ']' ∨ c = '\x7b' ∨ c = '\x7d' ∨ c = ',' ∨ c = ':' then some ⟨.mark c :: tokens, .blank⟩
  else if c = '"' then some ⟨tokens, .text []⟩
  else if c.isDigit then some ⟨tokens, .number (c.toNat - '0'.toNat)⟩
  else none

/-- Goes on after a whole code unit; a surrogate must be one of a pair. -/
def finishCode (tokens : List Token) (content : List Char) (high : Option Nat) (unit : Nat) : Option Reader :=
  match high with
  | some h =>
    if 0xdc00 ≤ unit ∧ unit ≤ 0xdfff then
      some ⟨tokens, .text (Char.ofNat (0x10000 + (h - 0xd800) * 0x400 + (unit - 0xdc00)) :: content)⟩
    else none
  | none =>
    if 0xd800 ≤ unit ∧ unit ≤ 0xdbff then some ⟨tokens, .surrogate content unit⟩
    else if 0xdc00 ≤ unit ∧ unit ≤ 0xdfff then none
    else some ⟨tokens, .text (Char.ofNat unit :: content)⟩

/-- Takes one character. -/
def step (r : Reader) (c : Char) : Option Reader :=
  match r.mode with
  | .blank => startToken r.tokens c
  | .number n =>
    if c.isDigit then
      -- A number has no leading zero.
      if n = 0 then none else some { r with mode := .number (10 * n + (c.toNat - '0'.toNat)) }
    else startToken (.number n :: r.tokens) c
  | .text content =>
    if c = '"' then some ⟨.text (String.ofList content.reverse) :: r.tokens, .blank⟩
    else if c = '\\' then some { r with mode := .escape content }
    else if c.toNat < 0x20 then none
    else some { r with mode := .text (c :: content) }
  | .escape content =>
    if c = 'u' then some { r with mode := .code content none 4 0 }
    else (shortEscape? c).map fun e => { r with mode := .text (e :: content) }
  | .code content high left value =>
    (Text.hexValue? c).bind fun digit =>
      if left ≤ 1 then finishCode r.tokens content high (16 * value + digit)
      else some { r with mode := .code content high (left - 1) (16 * value + digit) }
  | .surrogate content high => if c = '\\' then some { r with mode := .surrogateEscape content high } else none
  | .surrogateEscape content high => if c = 'u' then some { r with mode := .code content (some high) 4 0 } else none

/-- The tokens of a whole document. -/
def scan (document : String) : Option (List Token) :=
  (document.toList.foldlM step {}).bind fun r =>
    match r.mode with
    | .blank => some r.tokens.reverse
    | .number n => some (.number n :: r.tokens).reverse
    | _ => none

end Token

end VirtineCleaning.Config
