-- SUMMARY: Moving over the characters of a pattern, and its numbers, escapes and flags.
import OpenApi.Pattern.Error
import OpenApi.Text.Blank

/-!
# Scanning patterns

A scanner stands at a place of a pattern. In free spacing, blanks and comments
from `#` to the end of a line do not count. The functions here read what has no
inner structure: decimal and hexadecimal numbers, escapes and lists of flags.
-/

namespace OpenApi.Pattern

/-- What is still to be read, where, and whether spacing is free. -/
structure Scanner where
  rest : List Char
  place : Place
  freeSpacing : Bool := false

namespace Scanner

/-! ## Moving -/

/-- Whether nothing is left. -/
def atEnd (s : Scanner) : Bool := s.rest.isEmpty

/-- The next character. -/
def next? (s : Scanner) : Option Char := s.rest.head?

/-- Whether a given character comes next. -/
def sees (s : Scanner) (c : Char) : Bool := s.next? == some c

/-- Move over one character. -/
def bump (s : Scanner) : Scanner :=
  match s.rest with
  | [] => s
  | c :: rest => { s with rest := rest, place := s.place.after c }

/-- Move over the characters of a list. -/
def skipOver (s : Scanner) : List Char → List Char → Scanner
  | c :: skipped, rest => skipOver { s with place := s.place.after c } skipped rest
  | [], rest => { s with rest := rest }

/-- The blanks and comments at the front, and the rest. -/
def splitFree (comment : Bool) : List Char → List Char × List Char
  | [] => ([], [])
  | c :: rest =>
    if comment || Text.isBlank c || c = '#' then
      let (skipped, left) := splitFree (if c = '\n' then false else comment || c = '#') rest
      (c :: skipped, left)
    else ([], c :: rest)

/-- In free spacing, move over blanks and comments. -/
def bumpSpace (s : Scanner) : Scanner :=
  if s.freeSpacing then
    let (skipped, rest) := splitFree false s.rest
    s.skipOver skipped rest
  else s

/-- Move over one character and free spacing. -/
def bumpAndSpace (s : Scanner) : Scanner := s.bump.bumpSpace

/-- Move over blanks, whether or not spacing is free. -/
def skipBlanks (s : Scanner) : Scanner :=
  s.skipOver (s.rest.takeWhile Text.isBlank) (s.rest.dropWhile Text.isBlank)

/-- Move over a text if it comes next. -/
def skip? (s : Scanner) (text : String) : Option Scanner :=
  match List.isPrefixOf? text.toList s.rest with
  | some rest => some (s.skipOver text.toList rest)
  | none => none

/-- The span of the next character. -/
def charSpan (s : Scanner) : Span :=
  match s.rest with
  | [] => s.place.here
  | c :: _ => ⟨s.place, s.place.after c⟩

/-- From a place up to here. -/
def spanFrom (s : Scanner) (start : Place) : Span := ⟨start, s.place⟩

/-! ## Numbers -/

/-- Take characters of a class one by one, with free spacing behind each; at most as many as
there are characters. -/
def takeSpaced (ok : Char → Bool) : Nat → Scanner → List Char × Scanner
  | 0, s => ([], s)
  | fuel + 1, s =>
    match s.rest with
    | [] => ([], s)
    | c :: _ =>
      if ok c then
        let (taken, s) := takeSpaced ok fuel s.bumpAndSpace
        (c :: taken, s)
      else ([], s)

/-- The value of decimal digits, if it fits 32 bits. -/
def decimalValue? (digits : List Char) : Option Nat :=
  let n := digits.foldl (fun n d => 10 * n + (d.toNat - '0'.toNat)) 0
  if n < 0x100000000 then some n else none

/-- A decimal number between blanks. The number may turn out to be missing or too large, which
matters only if what follows is in order. -/
def decimal (s : Scanner) : Except Error Nat × Scanner :=
  let s := s.skipBlanks
  let start := s.place
  let (digits, s) := takeSpaced Char.isDigit s.rest.length s
  let span := s.spanFrom start
  let s := if s.freeSpacing then s.bumpSpace else s.skipBlanks
  if digits.isEmpty then (.error ⟨span, .countEmpty⟩, s)
  else
    match decimalValue? digits with
    | some n => (.ok n, s)
    | none => (.error ⟨span, .decimalInvalid⟩, s)

/-- A hexadecimal digit. -/
def isHexDigit (c : Char) : Bool :=
  c.isDigit || ('a' ≤ c && c ≤ 'f') || ('A' ≤ c && c ≤ 'F')

/-- The value of a hexadecimal digit. -/
def hexDigitValue (c : Char) : Nat :=
  if c.isDigit then c.toNat - '0'.toNat
  else if 'a' ≤ c then c.toNat - 'a'.toNat + 10 else c.toNat - 'A'.toNat + 10

/-- The character with the given hexadecimal number, if there is one. -/
def hexChar? (digits : List Char) : Option Char :=
  let n := digits.foldl (fun n d => 16 * n + hexDigitValue d) 0
  if n.isValidChar then some (Char.ofNat n) else none

/-- A given number of hexadecimal digits. -/
def hexDigits : Nat → Scanner → Except Error (List Char × Scanner)
  | 0, s => .ok ([], s)
  | count + 1, s =>
    match s.rest with
    | [] => .error ⟨s.place.here, .escapeUnfinished⟩
    | c :: _ =>
      if isHexDigit c then
        match hexDigits count s.bumpAndSpace with
        | .ok (digits, s) => .ok (c :: digits, s)
        | .error e => .error e
      else .error ⟨s.charSpan, .hexDigit⟩

/-- The character behind `\x`, `\u` or `\U`, which takes that many digits if there are no
braces. -/
def hexLiteral (start : Place) (width : Nat) (s : Scanner) : Except Error (Literal × Scanner) :=
  let s := s.bumpAndSpace
  if s.atEnd then .error ⟨s.place.here, .escapeUnfinished⟩
  else if s.sees '\x7b' then
    let brace := s.place
    let (digits, s) := takeSpaced isHexDigit s.rest.length s.bumpAndSpace
    let inner : Span := ⟨brace.after '\x7b', s.place⟩
    match s.rest with
    | [] => .error ⟨s.spanFrom brace, .escapeUnfinished⟩
    | c :: _ =>
      if c = '\x7d' then
        let s := s.bumpAndSpace
        if digits.isEmpty then .error ⟨s.spanFrom brace, .hexEmpty⟩
        else
          match hexChar? digits with
          | some c => .ok (⟨s.spanFrom start, c, false⟩, s)
          | none => .error ⟨inner, .hexNoScalar⟩
      else .error ⟨s.charSpan, .hexDigit⟩
  else
    let first := s.place
    match hexDigits width s with
    | .error e => .error e
    | .ok (digits, s) =>
      match hexChar? digits with
      | some c => .ok (⟨s.spanFrom start, c, width = 2⟩, s)
      | none => .error ⟨s.spanFrom first, .hexNoScalar⟩

/-! ## Flags -/

/-- The flag with a letter. -/
def flagOf? : Char → Option Flag
  | 'i' => some .caseInsensitive
  | 'm' => some .multiLine
  | 's' => some .dotAll
  | 'U' => some .swapGreed
  | 'u' => some .unicode
  | 'R' => some .crlf
  | 'x' => some .freeSpacing
  | _ => none

/-- A list of flags up to a colon or a closing parenthesis; each stands in it once. -/
def flagItems : Nat → List FlagItem → Scanner → Except Error (List FlagItem × Scanner)
  | 0, items, s => .ok (items.reverse, s)
  | fuel + 1, items, s =>
    match s.rest with
    | [] => .error ⟨s.place.here, .flagUnfinished⟩
    | c :: _ =>
      if c = ':' || c = ')' then
        match items with
        | ⟨span, none⟩ :: _ => .error ⟨span, .flagDangling⟩
        | _ => .ok (items.reverse, s)
      else
        let add (flag : Option Flag) : Except Error (List FlagItem × Scanner) :=
          match items.reverse.find? (·.flag = flag) with
          | some item =>
            .error ⟨s.charSpan,
              if flag.isNone then .negationRepeated item.span else .flagRepeated item.span⟩
          | none =>
            let items := ⟨s.charSpan, flag⟩ :: items
            let s := s.bump
            if s.atEnd then .error ⟨s.place.here, .flagUnfinished⟩ else flagItems fuel items s
        if c = '-' then add none
        else
          match flagOf? c with
          | some flag => add (some flag)
          | none => .error ⟨s.charSpan, .flagUnknown⟩

/-! ## Escapes -/

/-- What one escape or one plain character stands for. -/
inductive Atom where
  | literal (literal : Literal)
  | dot (span : Span)
  | assertion (span : Span)
  | perl (span : Span) (negated : Bool) (kind : PerlKind)
  | property (span : Span) (negated : Bool) (query : PropertyQuery)

/-- The span of an atom. -/
def Atom.span : Atom → Span
  | .literal l => l.span
  | .dot span | .assertion span | .perl span .. | .property span .. => span

/-- Characters with a meaning of their own somewhere in a pattern. -/
def isMeta (c : Char) : Bool := "\\.+*?()|[]\x7b\x7d^$#&-~".contains c

/-- Characters that may stand behind a backslash for themselves. -/
def isEscapable (c : Char) : Bool :=
  isMeta c || (c.toNat < 0x80 && !c.isAlphanum && c ≠ '<' && c ≠ '>')

/-- The control characters with a letter. -/
def controlOf? : Char → Option Char
  | 'a' => some '\x07'
  | 'f' => some '\x0c'
  | 't' => some '\t'
  | 'n' => some '\n'
  | 'r' => some '\r'
  | 'v' => some '\x0b'
  | _ => none

/-- Split at the first place where a text occurs. -/
def splitAt? (separator : List Char) : List Char → List Char → Option (List Char × List Char)
  | before, text =>
    match List.isPrefixOf? separator text with
    | some after => some (before.reverse, after)
    | none =>
      match text with
      | [] => none
      | c :: rest => splitAt? separator (c :: before) rest

/-- How a property in braces is named. -/
def queryOf (name : List Char) : PropertyQuery :=
  let valued (parts : List Char × List Char) : PropertyQuery :=
    .valued (String.ofList parts.1) (String.ofList parts.2)
  match splitAt? ['!', '='] [] name with
  | some parts => valued parts
  | none =>
    match splitAt? [':'] [] name with
    | some parts => valued parts
    | none =>
      match splitAt? ['='] [] name with
      | some parts => valued parts
      | none => .named (String.ofList name)

/-- The property behind `\p` or `\P`. -/
def property (start : Place) (negated : Bool) (s : Scanner) : Except Error (Atom × Scanner) :=
  let s := s.bumpAndSpace
  match s.rest with
  | [] => .error ⟨s.place.here, .escapeUnfinished⟩
  | '\x7b' :: _ =>
    let (name, s) := takeSpaced (· ≠ '\x7d') s.rest.length s.bumpAndSpace
    if s.atEnd then .error ⟨s.place.here, .escapeUnfinished⟩
    else
      let s := s.bump
      .ok (.property (s.spanFrom start) negated (queryOf name), s)
  | '\\' :: _ => .error ⟨s.charSpan, .propertyEscape⟩
  | c :: _ =>
    let s := s.bumpAndSpace
    .ok (.property (s.spanFrom start) negated (.named c.toString), s)

/-- A name in braces behind `\b` makes it one of four other assertions; braces that do not
start with a name are left to be read as a count. -/
def boundary (start : Place) (s : Scanner) : Except Error (Atom × Scanner) :=
  let plain : Except Error (Atom × Scanner) := .ok (.assertion (s.spanFrom start), s)
  if !s.sees '\x7b' then plain
  else
    let isNameChar (c : Char) : Bool := c.isAlpha || c = '-'
    let inner := s.bumpAndSpace
    match inner.rest with
    | [] => .error ⟨inner.spanFrom start, .boundaryUnfinished⟩
    | c :: _ =>
      if !isNameChar c then plain
      else
        let (name, behind) := takeSpaced isNameChar inner.rest.length inner
        if !behind.sees '\x7d' then .error ⟨behind.spanFrom s.place, .boundaryUnclosed⟩
        else if ["start", "end", "start-half", "end-half"].contains (String.ofList name) then
          .ok (.assertion (behind.bump.spanFrom start), behind.bump)
        else .error ⟨behind.spanFrom inner.place, .boundaryUnknown⟩

/-- An escape. -/
def escape (s : Scanner) : Except Error (Atom × Scanner) :=
  let start := s.place
  let s := s.bump
  match s.rest with
  | [] => .error ⟨s.spanFrom start, .escapeUnfinished⟩
  | c :: _ =>
    let behind := s.bump
    let span := behind.spanFrom start
    let perl (negated : Bool) (kind : PerlKind) : Except Error (Atom × Scanner) :=
      .ok (.perl span negated kind, behind)
    let hex (width : Nat) : Except Error (Atom × Scanner) :=
      match hexLiteral start width s with
      | .ok (literal, s) => .ok (.literal literal, s)
      | .error e => .error e
    if c.isDigit then .error ⟨span, .backreference⟩
    else
      match c with
      | 'x' => hex 2
      | 'u' => hex 4
      | 'U' => hex 8
      | 'p' => property start false s
      | 'P' => property start true s
      | 'd' => perl false .digit
      | 's' => perl false .space
      | 'w' => perl false .word
      | 'D' => perl true .digit
      | 'S' => perl true .space
      | 'W' => perl true .word
      | 'b' => boundary start behind
      | 'A' | 'z' | 'B' | '<' | '>' => .ok (.assertion span, behind)
      | c =>
        match controlOf? c with
        | some control => .ok (.literal ⟨span, control, false⟩, behind)
        | none =>
          if isEscapable c then .ok (.literal ⟨span, c, false⟩, behind)
          else .error ⟨span, .escapeUnknown⟩

/-- One atom outside of a class. -/
def atom (s : Scanner) : Except Error (Atom × Scanner) :=
  match s.rest with
  | '\\' :: _ => escape s
  | '.' :: _ => .ok (.dot s.charSpan, s.bump)
  | '^' :: _ | '$' :: _ => .ok (.assertion s.charSpan, s.bump)
  | c :: _ => .ok (.literal ⟨s.charSpan, c, false⟩, s.bump)
  | [] => .error ⟨s.place.here, .escapeUnfinished⟩

end Scanner
end OpenApi.Pattern
