-- SUMMARY: Reading a JSON text into a located tree, and into a value.
import OpenApi.Json.Numeral
import OpenApi.Json.Tree

/-!
# Reading JSON

`Tree.read` makes one pass over the characters of a text and finds its tree;
`parse` is the value of the tree, if nothing but blanks follows it. A fault that is
noticed by looking at the next byte is placed behind that byte, one that is
noticed after taking a byte behind the bytes taken.

Of two steps of the recursion one takes a character, so twice the number of
characters bounds its depth.
-/

namespace OpenApi.Json

/-! ## Cursors -/

/-- What is still to be read, and the number of bytes before it. -/
structure Cursor where
  rest : List Char
  offset : Nat

namespace Cursor

/-- The start of a text. -/
def ofText (text : String) : Cursor := ⟨text.toList, 0⟩

/-- The offset behind the next byte, or the end. -/
def peeked (c : Cursor) : Nat := if c.rest.isEmpty then c.offset else c.offset + 1

/-- A fault noticed by looking at the next byte. -/
def ahead (c : Cursor) (defect : Defect) : Fault := ⟨c.peeked, defect⟩

/-- Move over `count` characters of one byte each. -/
def skip (c : Cursor) (count : Nat) : Cursor := ⟨c.rest.drop count, c.offset + count⟩

/-- Whether a character may stand between the parts of a text. -/
def isSpace (c : Char) : Bool := c = ' ' || c = '\n' || c = '\t' || c = '\r'

/-- Move over blanks. -/
def trim (c : Cursor) : Cursor :=
  let blanks := (c.rest.takeWhile isSpace).length
  c.skip blanks

end Cursor

/-- A result and where reading goes on, or the place at which it stops. -/
abbrev Reading (α : Type) := Except Breach (α × Cursor)

/-! ## Words and numbers -/

/-- Take the characters of a word one by one. -/
def readWord : List Char → Cursor → Reading Unit
  | [], c => .ok ((), c)
  | w :: ws, c =>
    match c.rest with
    | [] => .error (Fault.both ⟨c.offset, .endInValue⟩)
    | x :: _ =>
      if x = w then readWord ws (c.skip 1)
      else .error (Fault.both ⟨c.offset + 1, .expectedWord⟩)

/-- The digits at the front. -/
def takeDigits (c : Cursor) : List Nat × Cursor :=
  let digits := c.rest.takeWhile Char.isDigit
  (digits.map fun d => d.toNat - '0'.toNat, c.skip digits.length)

/-- A number that ends too early is unfinished for a reader of values, and invalid for one
that skips. -/
def unfinished (c : Cursor) : Breach :=
  ⟨⟨c.offset, if c.rest.isEmpty then .endInValue else .invalidNumber⟩, ⟨c.offset, .invalidNumber⟩⟩

/-- The whole digits of a number: a zero alone, or digits that start with no zero. -/
def readWhole (c : Cursor) : Reading (List Nat) :=
  match c.rest with
  | [] => .error (unfinished c)
  | '0' :: next :: _ =>
    if next.isDigit then .error (Fault.both ((c.skip 1).ahead .invalidNumber))
    else .ok ([0], c.skip 1)
  | x :: _ =>
    if x.isDigit then .ok (takeDigits c)
    else .error (Fault.both ⟨c.offset + 1, .invalidNumber⟩)

/-- The digits behind a point. -/
def readFraction (c : Cursor) : Reading (List Nat × Bool) :=
  match c.rest with
  | '.' :: _ =>
    let (digits, after) := takeDigits (c.skip 1)
    if digits.isEmpty then
      .error ⟨⟨after.peeked, if after.rest.isEmpty then .endInValue else .invalidNumber⟩,
        after.ahead .invalidNumber⟩
    else .ok ((digits, true), after)
  | _ => .ok (([], false), c)

/-- The exponent with its sign. -/
def readPower (c : Cursor) : Reading (Option (Bool × List Nat)) :=
  match c.rest with
  | x :: _ =>
    if x = 'e' || x = 'E' then
      let (down, c) :=
        match (c.skip 1).rest with
        | '+' :: _ => (false, c.skip 2)
        | '-' :: _ => (true, c.skip 2)
        | _ => (false, c.skip 1)
      match c.rest with
      | [] => .error (unfinished c)
      | d :: _ =>
        if d.isDigit then
          let (digits, c) := takeDigits c
          .ok (some (down, digits), c)
        else .error (Fault.both ⟨c.offset + 1, .invalidNumber⟩)
    else .ok (none, c)
  | [] => .ok (none, c)

/-- A number with its value, which is a fault if it is out of range. -/
def readNumber (c : Cursor) : Except Breach (Except Fault Json × Cursor) := do
  let negative := c.rest.head? == some '-'
  let (whole, c) ← readWhole (if negative then c.skip 1 else c)
  let ((fraction, pointed), c) ← readFraction c
  let (power, c) ← readPower c
  let value :=
    match (Numeral.mk negative whole fraction pointed power).value with
    | .ok value => .ok (.num value)
    | .error unread => .error ⟨c.offset - unread, .numberOutOfRange⟩
  .ok (value, c)

/-! ## Strings -/

/-- The number written by four hexadecimal digits. -/
def hexValue (digits : List Char) : Option Nat :=
  digits.foldl (fun value d =>
    value.bind fun value =>
      if '0' ≤ d && d ≤ '9' then some (16 * value + (d.toNat - '0'.toNat))
      else if 'a' ≤ d && d ≤ 'f' then some (16 * value + (d.toNat - 'a'.toNat + 10))
      else if 'A' ≤ d && d ≤ 'F' then some (16 * value + (d.toNat - 'A'.toNat + 10))
      else none) (some 0)

/-- A string as far as it has been read. -/
structure Spelling where
  /-- The characters, last first. -/
  reversed : List Char := []
  /-- A high surrogate that waits for a low one. -/
  pending : Option Nat := none
  /-- The first fault that matters to a reader of the value alone. -/
  flaw : Option Fault := none

namespace Spelling

/-- Note a fault, unless there is an earlier one. -/
def note (s : Spelling) (fault : Fault) : Spelling := { s with flaw := s.flaw.or (some fault) }

/-- A high surrogate has to be followed by another escape. -/
def settle (s : Spelling) (offset : Nat) : Spelling :=
  if s.pending.isSome then { s.note ⟨offset, .unfinishedSurrogate⟩ with pending := none } else s

/-- Add a character. -/
def push (s : Spelling) (c : Char) : Spelling := { s with reversed := c :: s.reversed }

/-- Add the code unit of a hexadecimal escape that ends at `offset`. -/
def pushUnit (s : Spelling) (unit offset : Nat) : Spelling :=
  let isLow := 0xDC00 ≤ unit && unit ≤ 0xDFFF
  match s.pending with
  | some high =>
    let s := { s with pending := none }
    if isLow then s.push (Char.ofNat (0x10000 + (high - 0xD800) * 0x400 + (unit - 0xDC00)))
    else s.note ⟨offset, .loneSurrogate⟩
  | none =>
    if isLow then s.note ⟨offset, .loneSurrogate⟩
    else if 0xD800 ≤ unit && unit ≤ 0xDBFF then { s with pending := some unit }
    else s.push (Char.ofNat unit)

/-- The text read, or the fault in it. -/
def result (s : Spelling) : Except Fault String :=
  match s.flaw with
  | some fault => .error fault
  | none => .ok (String.ofList s.reversed.reverse)

/-- Stop at a fault that both readers notice. -/
def stop (s : Spelling) (fault : Fault) : Breach := ⟨s.flaw.getD fault, fault⟩

end Spelling

/-- The character that a short escape stands for. -/
def shortEscape : Char → Option Char
  | '"' => some '"'
  | '\\' => some '\\'
  | '/' => some '/'
  | 'b' => some '\x08'
  | 'f' => some '\x0c'
  | 'n' => some '\n'
  | 'r' => some '\r'
  | 't' => some '\t'
  | _ => none

/-- Read a string behind its opening quotation mark. -/
def readString (s : Spelling) (offset : Nat) : List Char → Reading (Except Fault String)
  | [] => .error (s.stop ⟨offset, .endInString⟩)
  | '"' :: rest => .ok ((s.settle (offset + 1)).result, ⟨rest, offset + 1⟩)
  | '\\' :: [] => .error (s.stop ⟨offset + 1, .endInString⟩)
  | '\\' :: 'u' :: rest =>
    let bytes := (rest.take 4).foldr (fun c bytes => c.utf8Size + bytes) 0
    if bytes < 4 then .error (s.stop ⟨offset + 2 + bytes, .endInString⟩)
    else
      match rest with
      | a :: b :: c :: d :: rest =>
        match hexValue [a, b, c, d] with
        | some unit => readString (s.pushUnit unit (offset + 6)) (offset + 6) rest
        | none => .error (s.stop ⟨offset + 6, .invalidEscape⟩)
      | _ => .error (s.stop ⟨offset + 6, .invalidEscape⟩)
  | '\\' :: e :: rest =>
    let s := s.settle (offset + 2)
    match shortEscape e with
    | some c => readString (s.push c) (offset + 2) rest
    | none => .error (s.stop ⟨offset + 2, .invalidEscape⟩)
  | c :: rest =>
    let s := s.settle (offset + 1)
    if c.toNat < 0x20 then
      .error ⟨s.flaw.getD ⟨offset + 1, .controlCharacter⟩, ⟨offset, .controlCharacter⟩⟩
    else readString (s.push c) (offset + c.utf8Size) rest

/-! ## Containers -/

/-- What follows an item. -/
def pauseAt (c : Cursor) : Pause :=
  let c := c.trim
  match c.rest with
  | ']' :: _ => ⟨c.offset + 1, none⟩
  | ',' :: _ =>
    let c := (c.skip 1).trim
    match c.rest with
    | ']' :: _ => ⟨c.offset, some (c.ahead .trailingComma)⟩
    | _ => ⟨c.offset, some (c.ahead .trailingCharacters)⟩
  | [] => ⟨c.offset, some (c.ahead .endInList)⟩
  | _ => ⟨c.offset, some (c.ahead .trailingCharacters)⟩

/-- Where a reader rests that gives up behind a key or a member. -/
def restAt (c : Cursor) : Nat :=
  let c := c.trim
  match c.rest with
  | '\x7d' :: _ => c.offset + 1
  | _ => c.offset

/-- The levels of containers in which a value is read. -/
def levelLimit : Nat := 127

/-- The colon between a key and a value. -/
def readColon (c : Cursor) : Except Fault Cursor :=
  let c := c.trim
  match c.rest with
  | ':' :: _ => .ok (c.skip 1)
  | [] => .error (c.ahead .endInObject)
  | _ => .error (c.ahead .expectedColon)

/-- What stands between the members of an object. -/
inductive Between where
  /-- A key, whose quotation mark has been taken. -/
  | key (c : Cursor)
  | closed (c : Cursor)
  | cut (breach : Breach)

/-- Find the next key: behind a comma unless it is the first. -/
def readBetween (first : Bool) (c : Cursor) : Between :=
  let c := c.trim
  match c.rest with
  | [] => .cut (Fault.both (c.ahead .endInObject))
  | '\x7d' :: _ => .closed (c.skip 1)
  | x :: _ =>
    if first then
      if x = '"' then .key (c.skip 1) else .cut (Fault.both (c.ahead .keyNotString))
    else if x = ',' then
      let c := (c.skip 1).trim
      match c.rest with
      | '"' :: _ => .key (c.skip 1)
      | '\x7d' :: _ => .cut ⟨c.ahead .trailingComma, c.ahead .keyNotString⟩
      | [] => .cut ⟨c.ahead .endInValue, c.ahead .endInObject⟩
      | _ => .cut (Fault.both (c.ahead .keyNotString))
    else .cut (Fault.both (c.ahead .expectedMemberSeparator))

/-- What stands between the items of a list. -/
inductive BetweenItems where
  | item (c : Cursor)
  | closed (c : Cursor)
  | cut (breach : Breach)

/-- Find the next item: behind a comma unless it is the first. -/
def readBetweenItems (first : Bool) (c : Cursor) : BetweenItems :=
  let c := c.trim
  match c.rest with
  | [] => .cut (Fault.both (c.ahead .endInList))
  | ']' :: _ => .closed (c.skip 1)
  | x :: _ =>
    if first then .item c
    else if x = ',' then
      let c := (c.skip 1).trim
      match c.rest with
      | ']' :: _ => .cut ⟨c.ahead .trailingComma, c.ahead .expectedValue⟩
      | [] => .cut (Fault.both (c.ahead .endInValue))
      | _ => .item c
    else .cut (Fault.both (c.ahead .expectedListSeparator))

/-- A leaf that was read from `start` on. -/
def leafOf (start : Nat) : Reading (Except Fault Json) → Tree × Option Cursor
  | .ok (value, c) => (.leaf start c.offset value, some c)
  | .error breach => (.broken breach, none)

/-! ## Trees -/

mutual

/-- Read the tree at a cursor inside `level` containers; there is no cursor behind a tree that
is cut. -/
def readTree : Nat → Nat → Cursor → Tree × Option Cursor
  | 0, _, c => (.broken (Fault.both (c.ahead .expectedValue)), none)
  | fuel + 1, level, c =>
    let c := c.trim
    let start := c.offset
    let word (text : String) (value : Json) : Tree × Option Cursor :=
      leafOf start ((readWord text.toList c).map fun after => (.ok value, after.2))
    match c.rest with
    | [] => (.broken (Fault.both (c.ahead .endInValue)), none)
    | 'n' :: _ => word "null" .null
    | 't' :: _ => word "true" (.bool true)
    | 'f' :: _ => word "false" (.bool false)
    | '"' :: rest =>
      leafOf start ((readString {} (start + 1) rest).map fun (value, after) =>
        (value.map .str, after))
    | '[' :: _ =>
      let (items, ending, after) := readItems fuel (level + 1) true (c.skip 1)
      (.list start (levelLimit ≤ level) items ending, after)
    | '\x7b' :: _ =>
      let (members, ending, after) := readMembers fuel (level + 1) true (c.skip 1)
      (.record start (levelLimit ≤ level) members ending, after)
    | x :: _ =>
      if x = '-' || x.isDigit then leafOf start (readNumber c)
      else (.broken (Fault.both (c.ahead .expectedValue)), none)

/-- Read the items of a list. -/
def readItems : Nat → Nat → Bool → Cursor →
    List (Tree × Pause) × Except Breach Nat × Option Cursor
  | 0, _, _, c => ([], .error (Fault.both (c.ahead .endInList)), none)
  | fuel + 1, level, first, c =>
    match readBetweenItems first c with
    | .cut breach => ([], .error breach, none)
    | .closed c => ([], .ok c.offset, some c)
    | .item c =>
      match readTree fuel level c with
      | (tree, none) => ([(tree, ⟨0, none⟩)], .ok 0, none)
      | (tree, some c) =>
        let (items, ending, after) := readItems fuel level false c
        ((tree, pauseAt c) :: items, ending, after)

/-- Read the members of an object. -/
def readMembers : Nat → Nat → Bool → Cursor →
    List (Key × Tree × Nat) × Ending × Option Cursor
  | 0, _, _, c => ([], .cut (Fault.both (c.ahead .endInObject)), none)
  | fuel + 1, level, first, c =>
    match readBetween first c with
    | .cut breach => ([], .cut breach, none)
    | .closed c => ([], .closed c.offset, some c)
    | .key c =>
      match readString {} c.offset c.rest with
      | .error breach => ([], .cut breach, none)
      | .ok (name, c) =>
        let key : Key := ⟨name, restAt c⟩
        match readColon c with
        | .error fault => ([], .colonless key fault, none)
        | .ok c =>
          match readTree fuel level c with
          | (tree, none) => ([(key, tree, 0)], .closed 0, none)
          | (tree, some c) =>
            let (members, ending, after) := readMembers fuel level false c
            ((key, tree, restAt c) :: members, ending, after)

end

namespace Tree

/-- The tree of a text and where it ends, unless it is cut. -/
def read (text : String) : Tree × Option Cursor :=
  let c := Cursor.ofText text
  readTree (2 * c.rest.length + 2) 0 c

end Tree

/-- The value of a text, or its first fault. -/
def parse (text : String) : Except Fault Json :=
  let (tree, after) := Tree.read text
  match tree.value with
  | .error located => .error located.fault
  | .ok value =>
    match after with
    | none => .ok value
    | some c =>
      let c := c.trim
      if c.rest.isEmpty then .ok value else .error (c.ahead .trailingCharacters)

end OpenApi.Json
