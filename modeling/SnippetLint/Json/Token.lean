/-
The tokens of JSON.

A text is cut into punctuation, strings and bare words by passing over it once. What a bare word
means, and what the escapes of a string stand for, is decided when its last character has been seen.
-/
import SnippetLint.Json.Basic

namespace SnippetLint.Json

inductive Token where
  | openObject
  | closeObject
  | openArray
  | closeArray
  | colon
  | comma
  /-- A string that is a text. -/
  | text (s : String)
  /-- Any other value that has no parts. -/
  | scalar (value : Json)

namespace Token

/-! ### Strings -/

/-- The value of a hexadecimal digit. -/
def hexDigit? (c : Char) : Option Nat :=
  if '0' ≤ c && c ≤ '9' then some (c.toNat - '0'.toNat)
  else if 'a' ≤ c && c ≤ 'f' then some (c.toNat - 'a'.toNat + 10)
  else if 'A' ≤ c && c ≤ 'F' then some (c.toNat - 'A'.toNat + 10)
  else none

/-- The number that four hexadecimal digits stand for. -/
def hex? (a b c d : Char) : Option Nat := do
  return (((← hexDigit? a) * 16 + (← hexDigit? b)) * 16 + (← hexDigit? c)) * 16 + (← hexDigit? d)

/-- The first half of a surrogate pair. -/
def isHighHalf (n : Nat) : Bool := 0xD800 ≤ n && n < 0xDC00

/-- The second half of a surrogate pair. -/
def isLowHalf (n : Nat) : Bool := 0xDC00 ≤ n && n < 0xE000

/-- The character of a surrogate pair. -/
def pair (high low : Nat) : Char := Char.ofNat (0x10000 + (high - 0xD800) * 0x400 + (low - 0xDC00))

/-- The character that a letter stands for behind a backslash. -/
def escaped? : Char → Option Char
  | '"' => some '"'
  | '\\' => some '\\'
  | '/' => some '/'
  | 'b' => some '\x08'
  | 'f' => some '\x0c'
  | 'n' => some '\n'
  | 'r' => some '\r'
  | 't' => some '\t'
  | _ => none

/--
The characters that the inside of a string stands for, with `none` for half a surrogate pair. There
is no result if an escape is malformed.
-/
def unescape : List Char → Option (List (Option Char))
  | [] => some []
  | '\\' :: 'u' :: a :: b :: c :: d :: rest => do
    let n ← hex? a b c d
    if isHighHalf n then
      match rest with
      | '\\' :: 'u' :: e :: f :: g :: h :: rest' =>
        let m ← hex? e f g h
        if isLowHalf m then return some (pair n m) :: (← unescape rest')
        else return none :: (← unescape ('\\' :: 'u' :: e :: f :: g :: h :: rest'))
      | rest => return none :: (← unescape rest)
    else if isLowHalf n then return none :: (← unescape rest)
    else return some (Char.ofNat n) :: (← unescape rest)
  | '\\' :: c :: rest => do
    let c ← escaped? c
    return some c :: (← unescape rest)
  | ['\\'] => none
  | c :: rest => do return some c :: (← unescape rest)

/-- The token of a string, given what stands between its quotes. -/
def ofQuoted? (inside : List Char) : Option Token := do
  let characters ← unescape inside
  match characters.mapM id with
  | some characters => return .text (String.ofList characters)
  | none => return .scalar (.other (String.ofList ('"' :: inside ++ ['"'])))

/-! ### Bare words -/

/-- Without the digits at the front, if there is one at least. -/
def dropDigits? : List Char → Option (List Char)
  | c :: rest => if c.isDigit then some (rest.dropWhile Char.isDigit) else none
  | [] => none

/-- Without the exponent at the front, if there is one. -/
def dropExponent? : List Char → Option (List Char)
  | [] => some []
  | c :: rest =>
    if c == 'e' || c == 'E' then
      match rest with
      | s :: digits => if s == '+' || s == '-' then dropDigits? digits else dropDigits? rest
      | [] => none
    else some (c :: rest)

/-- Without the fraction at the front, if there is one. -/
def dropFraction? : List Char → Option (List Char)
  | '.' :: rest => dropDigits? rest
  | rest => some rest

/-- Without the whole number at the front: a zero, or digits that do not begin with zero. -/
def dropWhole? : List Char → Option (List Char)
  | '0' :: rest => some rest
  | rest => dropDigits? rest

/-- Whether a word is a number. -/
def isNumber (word : List Char) : Bool :=
  let unsigned := match word with
    | '-' :: rest => rest
    | rest => rest
  (do dropExponent? (← dropFraction? (← dropWhole? unsigned))) == some []

/-- Whether a word is a number of digits alone. -/
def isCount (word : List Char) : Bool := dropWhole? word == some []

/-- The number that digits stand for. -/
def value (digits : List Char) : Nat :=
  digits.foldl (fun n c => n * 10 + (c.toNat - '0'.toNat)) 0

/-- The token of a bare word. -/
def ofWord? (word : List Char) : Option Token :=
  if word = "null".toList then some (.scalar .null)
  else if word = "true".toList then some (.scalar (.flag true))
  else if word = "false".toList then some (.scalar (.flag false))
  else if isCount word then some (.scalar (.count (value word)))
  else if isNumber word then some (.scalar (.other (String.ofList word)))
  else none

/-! ### The whole text -/

/-- What is being passed over: nothing, a bare word or a string, whose characters are kept in reverse. -/
inductive Mode where
  | between
  | word (seen : List Char)
  /-- Inside a string; whether a backslash stands before. -/
  | quoted (seen : List Char) (escape : Bool)

/-- Blanks between tokens. -/
def isSpace (c : Char) : Bool := c == ' ' || c == '\t' || c == '\n' || c == '\r'

/-- The punctuation that a character is. -/
def punctuation? : Char → Option Token
  | '\x7b' => some openObject
  | '\x7d' => some closeObject
  | '[' => some openArray
  | ']' => some closeArray
  | ':' => some colon
  | ',' => some comma
  | _ => none

/-- Whether a character ends a bare word. -/
def endsWord (c : Char) : Bool := isSpace c || (punctuation? c).isSome || c == '"'

/-- The token that a character is by itself, and what begins with it. -/
def begin (c : Char) : List Token × Mode :=
  if isSpace c then ([], .between)
  else match punctuation? c with
    | some token => ([token], .between)
    | none => if c == '"' then ([], .quoted [] false) else ([], .word [c])

/-- The tokens of the rest of a text. -/
def scanFrom : Mode → List Char → Option (List Token)
  | .between, [] => some []
  | .word seen, [] => (ofWord? seen.reverse).map ([·])
  | .quoted _ _, [] => none
  | .between, c :: rest =>
    let (tokens, mode) := begin c
    (scanFrom mode rest).map (tokens ++ ·)
  | .word seen, c :: rest =>
    if endsWord c then
      match ofWord? seen.reverse with
      | some word =>
        let (tokens, mode) := begin c
        (scanFrom mode rest).map (word :: tokens ++ ·)
      | none => none
    else scanFrom (.word (c :: seen)) rest
  | .quoted seen escape, c :: rest =>
    if c.toNat < 0x20 then none
    else if escape then scanFrom (.quoted (c :: seen) false) rest
    else if c == '\\' then scanFrom (.quoted (c :: seen) true) rest
    else if c == '"' then
      match ofQuoted? seen.reverse with
      | some token => (scanFrom .between rest).map (token :: ·)
      | none => none
    else scanFrom (.quoted (c :: seen) false) rest

/-- The tokens of a text, if it can be cut into tokens. -/
def scan? (t : List Char) : Option (List Token) := scanFrom .between t

end Token

end SnippetLint.Json
