import Playback.Report.Fixed
import Playback.Settings.Value

/-!
# Configurations as JSON text

`Setting.parse` reads a configuration from JSON text and `Setting.render` writes one. The reader
is a machine that takes one character at a time. It keeps the word or text that it is inside of
(`Lexeme`), the lists and tables that are not closed yet (`Frame`), and what may come next
(`Expected`); a character that may not come next ends the reading without a result.

A number with a point or an exponent is a decimal, and so is the integer minus zero. If a table
names an entry twice, the later one counts.
-/

namespace Playback

namespace Setting

/-! ### Words and texts -/

/-- The value of a hexadecimal digit. -/
def hexDigit? (c : Char) : Option Nat :=
  if c.isDigit then some (c.toNat - '0'.toNat)
  else if 'a' ≤ c ∧ c ≤ 'f' then some (c.toNat - 'a'.toNat + 10)
  else if 'A' ≤ c ∧ c ≤ 'F' then some (c.toNat - 'A'.toNat + 10)
  else none

/-- The character that a letter stands for after a backslash. -/
def escape? : Char → Option Char
  | '"' => some '"'
  | '\\' => some '\\'
  | '/' => some '/'
  | 'b' => some '\x08'
  | 'f' => some '\x0c'
  | 'n' => some '\n'
  | 'r' => some '\r'
  | 't' => some '\t'
  | _ => none

/-- Puts the characters of a sequence of code units before `chars`. The units come the latest
first; a high surrogate and the low surrogate after it make one character. -/
def characters (chars : List Char) : List Nat → List Char
  | [] => chars
  | [code] => Char.ofNat code :: chars
  | low :: high :: rest =>
    if 0xd800 ≤ high ∧ high < 0xdc00 ∧ 0xdc00 ≤ low ∧ low < 0xe000 then
      characters (Char.ofNat (0x10000 + (high - 0xd800) * 0x400 + (low - 0xdc00)) :: chars) rest
    else characters (Char.ofNat low :: chars) (high :: rest)

/-- Reads the digits at the head of a text: the number that they make after `n`, how many they
are, and what follows them. -/
def digits (n : Nat) : List Char → Nat × Nat × List Char
  | [] => (n, 0, [])
  | c :: rest =>
    if c.isDigit then
      let (m, count, rest) := digits (n * 10 + (c.toNat - '0'.toNat)) rest
      (m, count + 1, rest)
    else (n, 0, c :: rest)

/-- Reads the fraction of a number whose integral part is `whole`: all digits as one number, the
number of places, and what follows. -/
def fraction (whole : Nat) (chars : List Char) : Option (Nat × Nat × List Char) :=
  match chars with
  | '.' :: rest =>
    let (mantissa, places, rest) := digits whole rest
    if places = 0 then none else some (mantissa, places, rest)
  | _ => some (whole, 0, chars)

/-- Reads the exponent of a number up to the end of its text. -/
def exponent (chars : List Char) : Option Int :=
  let value (negative : Bool) (chars : List Char) : Option Int :=
    match digits 0 chars with
    | (n, count, []) => if count = 0 then none else some (if negative then -(n : Int) else n)
    | _ => none
  let signed (chars : List Char) : Option Int :=
    match chars with
    | '-' :: rest => value true rest
    | '+' :: rest => value false rest
    | _ => value false chars
  match chars with
  | [] => some 0
  | 'e' :: rest | 'E' :: rest => signed rest
  | _ => none

/-- The decimal `mantissa * 10 ^ shift`. -/
def decimalOf (negative : Bool) (mantissa : Nat) (shift : Int) : Setting :=
  let size := if mantissa = 0 then 0.0 else Float.ofScientific mantissa (shift < 0) shift.natAbs
  .decimal (if negative then -size else size)

/-- Reads a number. -/
def number (chars : List Char) : Option Setting := do
  let (negative, chars) :=
    match chars with
    | '-' :: rest => (true, rest)
    | _ => (false, chars)
  let (whole, count, rest) := digits 0 chars
  if count = 0 ∨ (1 < count ∧ chars.head? = some '0') then none
  else if rest.isEmpty ∧ ¬ (negative ∧ whole = 0) then
    some (.integer (if negative then -(whole : Int) else whole))
  else
    let (mantissa, places, rest) ← fraction whole rest
    let e ← exponent rest
    some (decimalOf negative mantissa (e - places))

/-- Reads a word that stands for a value: a constant or a number. -/
def constant (chars : List Char) : Option Setting :=
  if chars = "null".toList then some .null
  else if chars = "true".toList then some (.bool true)
  else if chars = "false".toList then some (.bool false)
  else number chars

/-! ### The machine -/

/-- What the reader is inside of. What is collected has the latest first. -/
inductive Lexeme where
  | blank
  /-- A constant or a number. -/
  | word (chars : List Char)
  /-- A text. -/
  | quoted (codes : List Nat)
  /-- A text, after a backslash. -/
  | escaped (codes : List Nat)
  /-- A text, in the number of a character of which so many digits are missing. -/
  | numbered (codes : List Nat) (missing value : Nat)

/-- A list or a table that is not closed yet, the latest item first. -/
inductive Frame where
  | items (values : List Setting)
  /-- The name is that of the entry whose value comes next. -/
  | entries (values : List (String × Setting)) (name : String)

/-- What may come next. -/
inductive Expected where
  | value
  | valueOrClose
  | name
  | nameOrClose
  | colon
  | commaOrClose
  /-- Only the end of the text. -/
  | nothing
  deriving DecidableEq

/-- The state of the reader. -/
structure Reading where
  lexeme : Lexeme := .blank
  frames : List Frame := []
  expected : Expected := .value
  /-- The value of the whole text, once it is complete. -/
  result : Setting := .null

namespace Reading

/-- Whether a value may come next. -/
def takesValue (r : Reading) : Bool :=
  r.expected = .value || r.expected = .valueOrClose

/-- Takes a complete value. -/
def place (r : Reading) (v : Setting) : Option Reading :=
  if r.takesValue then
    match r.frames with
    | [] => some { r with result := v, expected := .nothing }
    | .items values :: rest =>
      some { r with frames := .items (v :: values) :: rest, expected := .commaOrClose }
    | .entries values name :: rest =>
      let values := (name, v) :: values.filter fun entry => entry.1 != name
      some { r with frames := .entries values name :: rest, expected := .commaOrClose }
  else none

/-- Takes a complete text, which is the name of an entry or a value. -/
def placeText (r : Reading) (text : String) : Option Reading :=
  match r.frames with
  | .entries values _ :: rest =>
    if r.expected = .name ∨ r.expected = .nameOrClose then
      some { r with frames := .entries values text :: rest, expected := .colon }
    else r.place (.text text)
  | _ => r.place (.text text)

/-- Opens a list or a table. -/
def openFrame (r : Reading) (f : Frame) (expected : Expected) : Option Reading :=
  if r.takesValue then some { r with frames := f :: r.frames, expected := expected } else none

/-- Takes a comma. -/
def comma (r : Reading) : Option Reading :=
  if r.expected = .commaOrClose then
    match r.frames with
    | .items _ :: _ => some { r with expected := .value }
    | .entries _ _ :: _ => some { r with expected := .name }
    | [] => none
  else none

/-- Closes a list. -/
def closeItems (r : Reading) : Option Reading :=
  match r.frames with
  | .items values :: rest =>
    if r.expected = .valueOrClose ∨ r.expected = .commaOrClose then
      { r with frames := rest, expected := .value }.place (.list values.reverse)
    else none
  | _ => none

/-- Closes a table. -/
def closeEntries (r : Reading) : Option Reading :=
  match r.frames with
  | .entries values _ :: rest =>
    if r.expected = .nameOrClose ∨ r.expected = .commaOrClose then
      { r with frames := rest, expected := .value }.place (.table values.reverse)
    else none
  | _ => none

/-- Takes a character between two words or texts. -/
def begin (r : Reading) (c : Char) : Option Reading :=
  match c with
  | ' ' | '\n' | '\r' | '\t' => some r
  | '"' => some { r with lexeme := .quoted [] }
  | '[' => r.openFrame (.items []) .valueOrClose
  | '\x7b' => r.openFrame (.entries [] "") .nameOrClose
  | ']' => r.closeItems
  | '\x7d' => r.closeEntries
  | ',' => r.comma
  | ':' => if r.expected = .colon then some { r with expected := .value } else none
  | c => some { r with lexeme := .word [c] }

/-- Takes the end of a word. -/
def endWord (r : Reading) (chars : List Char) : Option Reading :=
  (constant chars.reverse).bind { r with lexeme := .blank }.place

/-- Whether a character belongs to a word that has begun. -/
def continues (c : Char) : Bool :=
  c.isAlphanum || c = '-' || c = '+' || c = '.'

/-- Takes a character. -/
def next (r : Reading) (c : Char) : Option Reading :=
  match r.lexeme with
  | .blank => r.begin c
  | .word chars =>
    if continues c then some { r with lexeme := .word (c :: chars) }
    else (r.endWord chars).bind fun r => r.begin c
  | .quoted codes =>
    if c = '"' then
      { r with lexeme := .blank }.placeText (String.ofList (characters [] codes))
    else if c = '\\' then some { r with lexeme := .escaped codes }
    else if c.toNat < 32 then none
    else some { r with lexeme := .quoted (c.toNat :: codes) }
  | .escaped codes =>
    if c = 'u' then some { r with lexeme := .numbered codes 4 0 }
    else (escape? c).map fun d => { r with lexeme := .quoted (d.toNat :: codes) }
  | .numbered codes missing value =>
    (hexDigit? c).map fun d =>
      let value := value * 16 + d
      if missing ≤ 1 then { r with lexeme := .quoted (value :: codes) }
      else { r with lexeme := .numbered codes (missing - 1) value }

/-- The value that was read, at the end of the text. -/
def finish (r : Reading) : Option Setting :=
  match r.lexeme with
  | .blank => if r.expected = .nothing then some r.result else none
  | .word chars =>
    (r.endWord chars).bind fun r => if r.expected = .nothing then some r.result else none
  | _ => none

end Reading

/-- Reads a configuration from JSON text. -/
def parse (text : String) : Option Setting :=
  (text.toList.foldlM Reading.next {}).bind Reading.finish

/-! ### Writing -/

/-- A hexadecimal digit. -/
def hexDigit (n : Nat) : Char :=
  ['0', '1', '2', '3', '4', '5', '6', '7', '8', '9', 'a', 'b', 'c', 'd', 'e', 'f'].getD n '0'

/-- A character inside a quoted text. -/
def quotedChar (c : Char) : List Char :=
  if c = '"' ∨ c = '\\' then ['\\', c]
  else if c.toNat < 32 then
    ['\\', 'u', '0', '0', hexDigit (c.toNat / 16), hexDigit (c.toNat % 16)]
  else [c]

/-- A text in quotes. -/
def quote (text : String) : String :=
  String.ofList ('"' :: text.toList.flatMap quotedChar ++ ['"'])

/-- A decimal, written exactly; what is not finite cannot be written. -/
def renderDecimal (x : Float) : String :=
  if x.isFinite then
    let (m, e) := Fixed.decode x
    let sign := if Fixed.isNegative x then "-" else ""
    if 0 ≤ e then sign ++ toString (m <<< e.toNat) ++ "e0"
    else sign ++ toString (m * Nat.pow 5 (-e).toNat) ++ "e" ++ toString e
  else "null"

mutual

/-- Writes a configuration as JSON text without blanks. -/
def render : Setting → String
  | null => "null"
  | bool b => if b then "true" else "false"
  | integer n => toString n
  | decimal x => renderDecimal x
  | text s => quote s
  | list items => "[" ++ ",".intercalate (renderItems items) ++ "]"
  | table entries => "\x7b" ++ ",".intercalate (renderEntries entries) ++ "\x7d"

/-- Writes the items of a list. -/
def renderItems : List Setting → List String
  | [] => []
  | item :: rest => render item :: renderItems rest

/-- Writes the entries of a table. -/
def renderEntries : List (String × Setting) → List String
  | [] => []
  | (name, value) :: rest => (quote name ++ ":" ++ render value) :: renderEntries rest

end

end Setting

end Playback
