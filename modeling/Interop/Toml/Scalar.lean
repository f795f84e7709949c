import Interop.Toml.Value
import Interop.Decimal.Literal

/-! Strings, numbers, dates and times of a TOML document, and the blanks and comments between
its parts. -/

namespace Interop.Toml

/-- Any character but the control characters; a tab is allowed. -/
def isText (c : Char) : Bool := c = '\t' || (0x20 ≤ c.toNat && c.toNat ≠ 0x7f)

def skipSpaces (text : List Char) : List Char := text.dropWhile fun c => c = ' ' || c = '\t'

def newline? : List Char → Option (List Char)
  | '\n' :: rest => some rest
  | '\r' :: '\n' :: rest => some rest
  | _ => none

/-- Skips a comment up to the end of its line. -/
def skipComment (text : List Char) : List Char :=
  match text with
  | '#' :: rest => rest.dropWhile isText
  | _ => text

/-- What is left after the end of a line; only blanks and a comment may come before it. -/
def lineEnd? (text : List Char) : Option (List Char) :=
  match skipComment (skipSpaces text) with
  | [] => some []
  | rest => newline? rest

/-- Skips blanks, line ends and comments. A comment that holds a control character ends the
skipping in front of it. -/
def skipLines (text : List Char) : List Char := go false text
where
  go (inComment : Bool) : List Char → List Char
    | '\n' :: rest => go false rest
    | '\r' :: '\n' :: rest => go false rest
    | '#' :: rest => go true rest
    | c :: rest =>
      if inComment && isText c then go true rest
      else if c = ' ' || c = '\t' then go false rest
      else c :: rest
    | [] => []

/-! ## Strings -/

/-- The character with the code point that `count` hexadecimal digits write. -/
def codePoint? (count : Nat) (text : List Char) : Option (Char × List Char) := do
  let digits := text.take count
  if digits.length ≠ count then none
  let code ← digitsValue? 16 digits
  if code.isValidChar then some (Char.ofNat code, text.drop count) else none

/-- The character that an escape stands for, the backslash left out. -/
def escape? : Reader Char
  | 'b' :: rest => some ('\x08', rest)
  | 't' :: rest => some ('\t', rest)
  | 'n' :: rest => some ('\n', rest)
  | 'f' :: rest => some ('\x0c', rest)
  | 'r' :: rest => some ('\r', rest)
  | 'e' :: rest => some ('\x1b', rest)
  | '"' :: rest => some ('"', rest)
  | '\\' :: rest => some ('\\', rest)
  | 'x' :: rest => codePoint? 2 rest
  | 'u' :: rest => codePoint? 4 rest
  | 'U' :: rest => codePoint? 8 rest
  | _ => none

/-- The rest of a string on one line. The fuel bounds the characters read. -/
def basicString? : Nat → Reader (List Char)
  | 0, _ => none
  | _ + 1, [] => none
  | fuel + 1, c :: rest =>
    if c = '"' then some ([], rest)
    else do
      let (c, rest) ← if c = '\\' then escape? rest else if isText c then some (c, rest) else none
      let (body, rest) ← basicString? fuel rest
      return (c :: body, rest)

def literalString? : Reader (List Char)
  | [] => none
  | c :: rest =>
    if c = '\'' then some ([], rest)
    else if isText c then (literalString? rest).map fun (body, after) => (c :: body, after)
    else none

/-- Whether the text starts with three of the same quote, and what follows the last three in a
row of up to five of them; the others belong to the string. -/
def tripleQuote? (quote : Char) : Reader (List Char)
  | a :: b :: c :: rest =>
    if a = quote && b = quote && c = quote then
      let extra := (rest.takeWhile (· = quote)).take 2
      some (extra, rest.drop extra.length)
    else none
  | _ => none

/-- Skips blanks and line ends. -/
def skipBlankLines : List Char → List Char
  | '\r' :: '\n' :: rest => skipBlankLines rest
  | c :: rest => if c = ' ' || c = '\t' || c = '\n' then skipBlankLines rest else c :: rest
  | [] => []

/-- What follows a backslash that ends a line: the text after the blanks and line ends. -/
def lineContinuation? (text : List Char) : Option (List Char) :=
  (newline? (skipSpaces text)).map skipBlankLines

/-- The rest of a string over several lines; without escapes when it is literal. Line ends
belong to the string as they are. -/
def multilineString? (quote : Char) (literal : Bool) : Nat → Reader (List Char)
  | 0, _ => none
  | fuel + 1, text =>
    match tripleQuote? quote text with
    | some (extra, rest) => some (extra, rest)
    | none =>
      match text with
      | [] => none
      | c :: rest =>
        if c = '\\' && !literal then
          match lineContinuation? rest with
          | some rest => multilineString? quote literal fuel rest
          | none => do
            let (c, rest) ← escape? rest
            let (body, rest) ← multilineString? quote literal fuel rest
            return (c :: body, rest)
        else if isText c || (newline? text).isSome then do
          let (body, rest) ← multilineString? quote literal fuel rest
          return (c :: body, rest)
        else none

/-- A string on one line. -/
def lineString? : Reader String
  | '"' :: rest => (basicString? (rest.length + 1) rest).map fun (s, after) => (.ofList s, after)
  | '\'' :: rest => (literalString? rest).map fun (s, after) => (.ofList s, after)
  | _ => none

/-- A string of any of the four kinds. A newline right after three quotes is left out. -/
def string? (text : List Char) : Option (String × List Char) :=
  match text with
  | '"' :: '"' :: '"' :: rest => multiline '"' false rest
  | '\'' :: '\'' :: '\'' :: rest => multiline '\'' true rest
  | _ => lineString? text
where
  multiline (quote : Char) (literal : Bool) (rest : List Char) : Option (String × List Char) :=
    let body := (newline? rest).getD rest
    (multilineString? quote literal (body.length + 1) body).map fun (s, after) => (.ofList s, after)

/-! ## Numbers, dates and times -/

/-- Whether underscores stand only between two digits. -/
def underscoresBetween (isDigit : Char → Bool) : List Char → Bool
  | a :: '_' :: b :: rest => isDigit a && isDigit b && underscoresBetween isDigit (b :: rest)
  | a :: rest => isDigit a && underscoresBetween isDigit rest
  | [] => true

/-- Digits of a radix, with underscores between some of them. -/
def digits? (radix : Nat) (text : List Char) : Option Nat :=
  if text.isEmpty || !underscoresBetween (fun c => (digitValue? radix c).isSome) text then none
  else digitsValue? radix (text.filter (· ≠ '_'))

/-- Decimal digits without a zero in front of others. -/
def decimalDigits? (text : List Char) : Option Nat :=
  match text with
  | '0' :: _ :: _ => none
  | _ => digits? 10 text

/-- The digits after the mark of a radix. There may be none, but then there is no number. -/
def radixInteger? (radix : Nat) (digits : List Char) : Option Value :=
  if digits.isEmpty then some .unreadable
  else (digits? radix digits).map fun n => .ofInt n

/-- Whether every underscore stands between two digits; all else may be any character. -/
def underscoresSeparate (isDigit : Char → Bool) : List Char → Bool
  | '_' :: _ => false
  | a :: '_' :: b :: rest => isDigit a && isDigit b && underscoresSeparate isDigit (b :: rest)
  | _ :: rest => underscoresSeparate isDigit rest
  | [] => true

/-- Whether a text passes for a decimal integer though it need not be one: digits, an underscore,
and whatever follows but a point or an exponent. Around an underscore even the digits of
radix 16 will do. -/
def isDecimalLookalike (unsigned : List Char) : Bool :=
  let afterDigits := unsigned.dropWhile Char.isDigit
  unsigned.head?.any (fun c => c.isDigit && c ≠ '0')
    && afterDigits.head? = some '_'
    && !afterDigits.any (fun c => c = '.' || c = 'e' || c = 'E')
    && underscoresSeparate (fun c => (digitValue? 16 c).isSome) unsigned

def integerLiteral? (text : List Char) : Option Value :=
  match text with
  | '0' :: 'x' :: digits => radixInteger? 16 digits
  | '0' :: 'o' :: digits => radixInteger? 8 digits
  | '0' :: 'b' :: digits => radixInteger? 2 digits
  | _ =>
    let (negative, digits) := splitSign text
    match decimalDigits? digits with
    | some n => some (.ofInt (if negative then -(n : Int) else n))
    | none => if isDecimalLookalike digits then some .unreadable else none

/-- Whether an unsigned literal has a fraction or an exponent, and digits where they belong. -/
def isDecimalLiteral (unsigned : List Char) : Bool :=
  let isDigitOr := fun c => c.isDigit || c = '_'
  let whole := unsigned.takeWhile isDigitOr
  let (fraction, afterFraction) :=
    match unsigned.dropWhile isDigitOr with
    | '.' :: rest => (some (rest.takeWhile isDigitOr), rest.dropWhile isDigitOr)
    | rest => (none, rest)
  let exponent := match afterFraction with
    | [] => some none
    | c :: rest => if c = 'e' || c = 'E' then some (some (splitSign rest).2) else none
  (decimalDigits? whole).isSome
    && fraction.all (fun digits => (digits? 10 digits).isSome)
    && exponent.any (fun e => e.all fun digits => (digits? 10 digits).isSome)
    && (fraction.isSome || exponent.any Option.isSome)

def floatLiteral? (text : List Char) : Option Value :=
  let (negative, unsigned) := splitSign text
  if unsigned = ['i', 'n', 'f'] then some (.float (if negative then -1 / 0 else 1 / 0))
  else if unsigned = ['n', 'a', 'n'] then some (.float (0 / 0))
  else if isDecimalLiteral unsigned then
    (decimalLiteral? (text.filter (· ≠ '_'))).map Value.ofFloat
  else none

/-- A number of exactly `count` digits. -/
def fixedDigits? (count : Nat) : Reader Nat := fun text =>
  let digits := text.take count
  if digits.length = count && digits.all Char.isDigit then
    (digitsValue? 10 digits).map (·, text.drop count)
  else none

def char? (expected : Char) : List Char → Option (List Char)
  | c :: rest => if c = expected then some rest else none
  | [] => none

def daysInMonth (year month : Nat) : Nat :=
  if month = 2 then if year % 4 = 0 && (year % 100 ≠ 0 || year % 400 = 0) then 29 else 28
  else if month = 4 || month = 6 || month = 9 || month = 11 then 30 else 31

/-- Skips a date. -/
def date? (text : List Char) : Option (List Char) := do
  let (year, rest) ← fixedDigits? 4 text
  let (month, rest) ← fixedDigits? 2 (← char? '-' rest)
  let (day, rest) ← fixedDigits? 2 (← char? '-' rest)
  if 1 ≤ month && month ≤ 12 && 1 ≤ day && day ≤ daysInMonth year month then some rest else none

/-- Skips a time; the seconds and their fraction may be left out. -/
def time? (text : List Char) : Option (List Char) := do
  let (hour, rest) ← fixedDigits? 2 text
  let (minute, rest) ← fixedDigits? 2 (← char? ':' rest)
  if 24 ≤ hour || 60 ≤ minute then none
  match rest with
  | ':' :: rest => do
    let (second, rest) ← fixedDigits? 2 rest
    if 60 < second then none
    match rest with
    | '.' :: rest =>
      if (rest.takeWhile Char.isDigit).isEmpty then none else some (rest.dropWhile Char.isDigit)
    | _ => some rest
  | _ => some rest

/-- Skips the offset of a time from universal time, if there is one. -/
def timeOffset? (text : List Char) : Option (List Char) :=
  match text with
  | [] => some []
  | c :: rest =>
    if c = 'Z' || c = 'z' then some rest
    else if c = '+' || c = '-' then do
      let (hour, rest) ← fixedDigits? 2 rest
      let (minute, rest) ← fixedDigits? 2 (← char? ':' rest)
      if hour < 24 && minute < 60 then some rest else none
    else some text

/-- Whether a text is a date, a time, or both, with an offset at most when it is both. -/
def isDatetime (text : List Char) : Bool :=
  let full := do
    match ← date? text with
    | [] => some []
    | c :: rest =>
      if c = 'T' || c = 't' || c = ' ' then timeOffset? (← time? rest) else none
  full = some [] || time? text = some []

/-- The characters of numbers, dates and words: all that do not part one value from the next. -/
def isScalarPart (c : Char) : Bool :=
  c ∉ ['=', ',', '[', ']', '\x7b', '\x7d', '#', ' ', '\t', '\r', '\n']

/-- The text of a scalar that is no string. A date may be followed by a space and a time. -/
def scalarText (text : List Char) : List Char × List Char :=
  let word := text.takeWhile isScalarPart
  match text.dropWhile isScalarPart with
  | ' ' :: rest =>
    let time := rest.takeWhile isScalarPart
    if date? word = some [] && (time.head?.any Char.isDigit) then
      (word ++ ' ' :: time, rest.dropWhile isScalarPart)
    else (word, ' ' :: rest)
  | rest => (word, rest)

/-- A value that is not built from others. -/
def scalar? (text : List Char) : Option (Value × List Char) :=
  match text with
  | '"' :: _ | '\'' :: _ => (string? text).map fun (s, rest) => (.string s, rest)
  | _ =>
    let (word, rest) := scalarText text
    (meaning word).map (·, rest)
where
  meaning (word : List Char) : Option Value :=
    if word = ['t', 'r', 'u', 'e'] then some (.boolean true)
    else if word = ['f', 'a', 'l', 's', 'e'] then some (.boolean false)
    else (integerLiteral? word).or ((floatLiteral? word).or
      (if isDatetime word then some (.datetime (.ofList word)) else none))

end Interop.Toml
