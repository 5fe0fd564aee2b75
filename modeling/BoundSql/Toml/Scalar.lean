import BoundSql.Decimal.Reading
import BoundSql.Text.Hex

/-!
# TOML scalars

Keys and the values that are no containers. A string is written on one line
or on several, and with escapes or literally. Numbers, truth values and times
are told from other words by their spelling, but their values are not kept.
Every reader takes the text in front of it and gives what it read together
with what follows.
-/

namespace BoundSql.Toml

/-! ## Blanks and lines -/

/-- The text without the blanks in front of it. -/
def dropBlanks (text : List Char) : List Char :=
  text.dropWhile fun c => c == ' ' || c == '\t'

/-- What follows the end of a line. -/
def afterNewline? : List Char → Option (List Char)
  | '\n' :: rest => some rest
  | '\r' :: '\n' :: rest => some rest
  | _ => none

/-- Whether a character may stand in a comment or on a line of a string. -/
def isPlain (c : Char) : Bool :=
  c == '\t' || (0x20 ≤ c.toNat && c.toNat != 0x7F)

/-- The text without the comment in front of it. -/
def dropComment : List Char → List Char
  | '#' :: text => text.dropWhile isPlain
  | text => text

/-- Ends a line: blanks and a comment may come first, and the text may end. -/
def lineEnd? (text : List Char) : Option (List Char) :=
  match dropComment (dropBlanks text) with
  | [] => some []
  | text => afterNewline? text

/-! ## Strings -/

/-- The character of a code point, which must not be one of a pair. -/
def codePoint? (n : Nat) : Option Char :=
  if n < 0xD800 ∨ (0xDFFF < n ∧ n < 0x110000) then some (Char.ofNat n) else none

/-- The character that a short escape stands for. -/
def shortEscape? (c : Char) : Option Char :=
  if c = '\x22' then some '\x22'
  else if c = '\\' then some '\\'
  else if c = 'b' then some '\x08'
  else if c = 't' then some '\t'
  else if c = 'n' then some '\n'
  else if c = 'f' then some '\x0c'
  else if c = 'r' then some '\r'
  else none

/-- Puts a character in front of what was read. -/
def push (c : Char) (read : Option (List Char × List Char)) : Option (List Char × List Char) :=
  read.map fun (cs, rest) => (c :: cs, rest)

/-- Reads a string with escapes on one line, up to its closing quote. -/
def readBasic : List Char → Option (List Char × List Char)
  | [] => none
  | '\\' :: 'u' :: a :: b :: c :: d :: rest => do
    let c ← codePoint? (← Text.hexNumber? [a, b, c, d])
    push c (readBasic rest)
  | '\\' :: 'U' :: a :: b :: c :: d :: e :: f :: g :: h :: rest => do
    let c ← codePoint? (← Text.hexNumber? [a, b, c, d, e, f, g, h])
    push c (readBasic rest)
  | '\\' :: e :: rest => do
    let c ← shortEscape? e
    push c (readBasic rest)
  | c :: rest =>
    if c = '\x22' then some ([], rest)
    else if isPlain c && c != '\\' then push c (readBasic rest)
    else none

/-- Reads a string without escapes on one line, up to its closing quote. -/
def readLiteral : List Char → Option (List Char × List Char)
  | [] => none
  | c :: rest =>
    if c = '\x27' then some ([], rest)
    else if isPlain c then push c (readLiteral rest)
    else none

/-- What follows a closing triple quote, with the quotes, two at most, that stand
before it and belong to the string. -/
def closing? (quote : Char) : List Char → Option (List Char × List Char)
  | a :: b :: c :: rest =>
    if a = quote ∧ b = quote ∧ c = quote then
      match rest with
      | d :: e :: rest =>
        if d = quote then
          if e = quote then some ([quote, quote], rest) else some ([quote], e :: rest)
        else some ([], d :: e :: rest)
      | [d] => if d = quote then some ([quote], []) else some ([], [d])
      | [] => some ([], [])
    else none
  | _ => none

/-- Reads a string with escapes on several lines, up to its closing triple quote.
After a backslash at the end of a line all blanks and line ends are skipped. -/
def readBasicLines : Bool → List Char → Option (List Char × List Char)
  | _, [] => none
  | _, '\\' :: 'u' :: a :: b :: c :: d :: rest => do
    let c ← codePoint? (← Text.hexNumber? [a, b, c, d])
    push c (readBasicLines false rest)
  | _, '\\' :: 'U' :: a :: b :: c :: d :: e :: f :: g :: h :: rest => do
    let c ← codePoint? (← Text.hexNumber? [a, b, c, d, e, f, g, h])
    push c (readBasicLines false rest)
  | _, '\\' :: e :: rest =>
    match shortEscape? e with
    | some c => push c (readBasicLines false rest)
    | none =>
      if (afterNewline? (dropBlanks (e :: rest))).isSome then readBasicLines true (e :: rest)
      else none
  | skipping, '\r' :: '\n' :: rest =>
    if skipping then readBasicLines true rest else push '\n' (readBasicLines false rest)
  | skipping, c :: rest =>
    if skipping && (c == ' ' || c == '\t' || c == '\n') then readBasicLines true rest
    else if c = '\n' then push '\n' (readBasicLines false rest)
    else
      match closing? '\x22' (c :: rest) with
      | some closed => some closed
      | none =>
        if isPlain c && c != '\\' then push c (readBasicLines false rest) else none

/-- Reads a string without escapes on several lines, up to its closing triple quote. -/
def readLiteralLines : List Char → Option (List Char × List Char)
  | [] => none
  | '\r' :: '\n' :: rest => push '\n' (readLiteralLines rest)
  | c :: rest =>
    match closing? '\x27' (c :: rest) with
    | some closed => some closed
    | none => if c = '\n' || isPlain c then push c (readLiteralLines rest) else none

/-- The text without the end of a line in front of it. -/
def dropNewline (text : List Char) : List Char :=
  (afterNewline? text).getD text

/-- Reads a string of any form. -/
def readString : List Char → Option (List Char × List Char)
  | '\x22' :: '\x22' :: '\x22' :: text => readBasicLines false (dropNewline text)
  | '\x22' :: text => readBasic text
  | '\x27' :: '\x27' :: '\x27' :: text => readLiteralLines (dropNewline text)
  | '\x27' :: text => readLiteral text
  | _ => none

/-! ## Keys -/

/-- Whether a character may stand in a key without quotes. -/
def isBare (c : Char) : Bool :=
  c.isAlphanum || c == '_' || c == '-'

/-- Reads a key, which may be quoted on one line. -/
def readKey : List Char → Option (String × List Char)
  | '\x22' :: text => (readBasic text).map fun (key, rest) => (String.ofList key, rest)
  | '\x27' :: text => (readLiteral text).map fun (key, rest) => (String.ofList key, rest)
  | text =>
    let key := text.takeWhile isBare
    if key.isEmpty then none else some (String.ofList key, text.dropWhile isBare)

/-- The keys that a path may have. -/
def maxPath : Nat := 79

/-- Reads keys with points between them, so many at most. -/
def readPath : Nat → List Char → Option (List String × List Char)
  | 0, _ => none
  | most + 1, text => do
    let (key, rest) ← readKey (dropBlanks text)
    match dropBlanks rest with
    | '.' :: rest =>
      let (keys, rest) ← readPath most rest
      pure (key :: keys, rest)
    | rest => pure ([key], rest)

/-! ## Words -/

/-- Whether characters are digits of a kind with single underscores between them. -/
def areDigits (isDigit : Char → Bool) : List Char → Bool
  | [] => false
  | [c] => isDigit c
  | c :: '_' :: rest => isDigit c && areDigits isDigit rest
  | c :: rest => isDigit c && areDigits isDigit rest

/-- Whether characters are a whole number without a needless zero in front. -/
def areWhole (cs : List Char) : Bool :=
  areDigits Char.isDigit cs && (cs.length == 1 || cs.head? != some '0')

/-- The text without a sign in front of it. -/
def dropSign : List Char → List Char
  | '+' :: text => text
  | '-' :: text => text
  | text => text

/-- Whether a word is a whole number of 64 bits with a sign. -/
def isInteger (word : List Char) : Bool :=
  let fits (base : Nat) (cs : List Char) (bound : Nat) : Bool :=
    (cs.filter (· != '_')).foldl
      (fun n c => n * base + (Text.hexValue? c).getD 0) 0 ≤ bound
  match word with
  | '0' :: 'x' :: cs =>
    areDigits (fun c => (Text.hexValue? c).isSome) cs && fits 16 cs (Nat.pow 2 63 - 1)
  | '0' :: 'o' :: cs => areDigits (fun c => '0' ≤ c && c ≤ '7') cs && fits 8 cs (Nat.pow 2 63 - 1)
  | '0' :: 'b' :: cs => areDigits (fun c => c == '0' || c == '1') cs && fits 2 cs (Nat.pow 2 63 - 1)
  | '-' :: cs => areWhole cs && fits 10 cs (Nat.pow 2 63)
  | cs => areWhole (dropSign cs) && fits 10 (dropSign cs) (Nat.pow 2 63 - 1)

/-- Whether a number with a fraction or a power of ten does not exceed the largest
double; below the smallest one there is no bound. -/
def isBounded (word : List Char) : Bool :=
  (Decimal.read? (String.ofList (word.filter (· != '_')))).any fun x => !(x.isInf && 0.0 < x)

/-- Whether a word is a number with a fraction or a power of ten, or stands for
infinity or for what is not a number. -/
def isFloat (word : List Char) : Bool :=
  let isPower : List Char → Bool
    | [] => true
    | mark :: cs => (mark == 'e' || mark == 'E') && areDigits Char.isDigit (dropSign cs)
  let bare := dropSign word
  let isDigitOrLine (c : Char) : Bool := c.isDigit || c == '_'
  let isPlainFloat : Bool :=
    areWhole (bare.takeWhile isDigitOrLine) &&
      match bare.dropWhile isDigitOrLine with
      | '.' :: rest =>
        areDigits Char.isDigit (rest.takeWhile isDigitOrLine)
          && isPower (rest.dropWhile isDigitOrLine)
      | [] => false
      | rest => isPower rest
  bare == ['i', 'n', 'f'] || bare == ['n', 'a', 'n'] || (isPlainFloat && isBounded word)

/-- The number of two digits, if it lies between two bounds. -/
def isPair (low high : Nat) (a b : Char) : Bool :=
  let n := (a.toNat - '0'.toNat) * 10 + (b.toNat - '0'.toNat)
  a.isDigit && b.isDigit && low ≤ n && n ≤ high

/-- The days of a month. -/
def daysIn (year month : Nat) : Nat :=
  if month = 2 then
    if year % 4 = 0 ∧ (year % 100 ≠ 0 ∨ year % 400 = 0) then 29 else 28
  else if month = 4 ∨ month = 6 ∨ month = 9 ∨ month = 11 then 30 else 31

/-- What follows a date in front of a text. -/
def afterDate? : List Char → Option (List Char)
  | a :: b :: c :: d :: '-' :: e :: f :: '-' :: g :: h :: rest =>
    let number (cs : List Char) : Nat :=
      cs.foldl (fun n c => n * 10 + (c.toNat - '0'.toNat)) 0
    if [a, b, c, d].all Char.isDigit && isPair 1 12 e f
        && isPair 1 (daysIn (number [a, b, c, d]) (number [e, f])) g h then some rest
    else none
  | _ => none

/-- What follows a time of day in front of a text. -/
def afterTime? : List Char → Option (List Char)
  | a :: b :: ':' :: c :: d :: ':' :: e :: f :: rest =>
    if isPair 0 23 a b && isPair 0 59 c d && isPair 0 60 e f then
      match rest with
      | '.' :: x :: rest =>
        if x.isDigit then some (rest.dropWhile Char.isDigit) else none
      | rest => some rest
    else none
  | _ => none

/-- Whether a text is nothing or the offset of a time zone. -/
def isOffset : List Char → Bool
  | [] => true
  | ['Z'] | ['z'] => true
  | [sign, a, b, ':', c, d] => (sign == '+' || sign == '-') && isPair 0 23 a b && isPair 0 59 c d
  | _ => false

/-- Whether a word is a date, a time of day, or both. -/
def isMoment (word : List Char) : Bool :=
  match afterDate? word with
  | some [] => true
  | some (mark :: rest) =>
    (mark == 'T' || mark == 't' || mark == ' ') && (afterTime? rest).any isOffset
  | none => afterTime? word == some []

/-- Whether a word stands for a value. -/
def isWord (word : List Char) : Bool :=
  word == ['t', 'r', 'u', 'e'] || word == ['f', 'a', 'l', 's', 'e']
    || isInteger word || isFloat word || isMoment word

/-- Reads a word that stands for a value. A blank belongs to it only between a date
and a time of day. -/
def readWord (text : List Char) : Option (List Char) :=
  let inWord (c : Char) : Bool := isBare c || c == '+' || c == '.' || c == ':'
  let word := text.takeWhile inWord
  match afterDate? word, text.dropWhile inWord with
  | some [], ' ' :: rest =>
    let time := rest.takeWhile inWord
    if time.head?.any Char.isDigit then
      if isMoment (word ++ ' ' :: time) then some (rest.dropWhile inWord) else none
    else some (' ' :: rest)
  | _, rest => if isWord word then some rest else none

end BoundSql.Toml
