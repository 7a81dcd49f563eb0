-- SUMMARY: How many bytes the machines for a pattern take.
import OpenApi.Pattern.Property

/-!
# The size of a pattern

A pattern stands for two machines, one that reads a text forward and one that reads
it backward. Every state takes a fixed number of bytes, and more if it has several
ways out. A repetition copies its body as often as its counts say, so that a short
pattern can stand for a large machine; such a pattern is refused.

Classes of many characters are taken at their usual size, by rule of thumb: the
digits, blanks and word characters each have a size of their own, other properties
count as broad, middling or narrow.
-/

namespace OpenApi.Pattern

/-! ## Sizes -/

/-- The bytes of a machine that reads forward and of one that reads backward. -/
structure Bytes where
  forward : Nat
  backward : Nat
deriving DecidableEq, Repr

namespace Bytes

/-- The same number of bytes in either direction. -/
def both (n : Nat) : Bytes := ⟨n, n⟩

/-- Two machines side by side. -/
def add (a b : Bytes) : Bytes := ⟨a.forward + b.forward, a.backward + b.backward⟩

/-- Several copies of a machine. -/
def times (n : Nat) (a : Bytes) : Bytes := ⟨n * a.forward, n * a.backward⟩

/-- What two machines have in common at most. -/
def meet (a b : Bytes) : Bytes := ⟨min a.forward b.forward, min a.backward b.backward⟩

/-- Whether both directions keep within a limit. -/
def fits (limit : Nat) (a : Bytes) : Bool := a.forward ≤ limit && a.backward ≤ limit

end Bytes

/-- The bytes of a state. -/
def stateBytes : Nat := 32

/-- The bytes of a state that branches some ways. -/
def branchBytes (ways : Nat) : Nat := stateBytes + 4 * ways

/-- The bytes of one range in a class of ASCII characters. -/
def rangeBytes : Nat := 8

/-- The greatest number of bytes that a machine may take. -/
def sizeLimit : Nat := 10485760

/-! ## Classes -/

/-- The flags that change the size of a machine. -/
structure Mode where
  unicode : Bool := true
  caseless : Bool := false
  dotAll : Bool := false
deriving DecidableEq, Repr

/-- The mode behind a list of flags. -/
def Mode.set (mode : Mode) (items : List FlagItem) : Mode :=
  { unicode := (flagState .unicode items).getD mode.unicode,
    caseless := (flagState .caseInsensitive items).getD mode.caseless,
    dotAll := (flagState .dotAll items).getD mode.dotAll }

/-- Any character, or any but the end of a line. -/
def dotBytes (mode : Mode) : Bytes :=
  if mode.dotAll then ⟨416, 964⟩ else ⟨424, 1000⟩

/-- Properties that most characters with a use in words share, or lack. -/
def broadProperties : List String :=
  ["l", "letter", "lo", "otherletter", "c", "other", "cn", "unassigned", "assigned", "alpha",
   "alphabetic", "ids", "idstart", "idc", "idcontinue", "xids", "xidstart", "xidc",
   "xidcontinue", "grbase", "graphemebase"]

/-- Properties of many characters that are scattered. -/
def middlingProperties : List String :=
  ["lu", "uppercaseletter", "ll", "lowercaseletter", "lc", "casedletter", "upper", "uppercase",
   "lower", "lowercase", "cased", "ci", "caseignorable", "cwl", "changeswhenlowercased", "cwu",
   "changeswhenuppercased", "cwt", "changeswhentitlecased", "cwcf", "changeswhencasefolded",
   "cwcm", "changeswhencasemapped", "m", "mark", "combiningmark", "mn", "nonspacingmark",
   "grext", "graphemeextend", "n", "number", "p", "punctuation", "punct", "po",
   "otherpunctuation", "s", "symbol", "so", "othersymbol", "dia", "diacritic", "common", "zyyy"]

/-- The size of the class of a property, which is about that of its complement. -/
def PropertyQuery.bytes (query : PropertyQuery) : Bytes :=
  let plain :=
    match query with
    | .named name => plainName name
    | .valued _ value => plainName value
  if broadProperties.contains plain then ⟨18000, 42000⟩
  else if middlingProperties.contains plain then ⟨8000, 20000⟩
  else ⟨1300, 2600⟩

/-- The size of a class with a letter of its own. -/
def PerlKind.bytes (mode : Mode) (negated : Bool) (kind : PerlKind) : Bytes :=
  if mode.unicode then
    match kind, negated with
    | .digit, false => ⟨1408, 4640⟩
    | .digit, true => ⟨2232, 11656⟩
    | .space, false => ⟨424, 680⟩
    | .space, true => ⟨824, 1924⟩
    | .word, false => ⟨19968, 48168⟩
    | .word, true => ⟨19440, 45064⟩
  else .both (2 * stateBytes + 4 * rangeBytes)

/-- The size of a character as an item of a class: a range, or the bytes behind the first. -/
def itemBytes (mode : Mode) (c : Char) : Nat :=
  let one := if c.toNat < 0x80 then rangeBytes else stateBytes * c.utf8Size
  if mode.caseless then 2 * one else one

/-- The size of a character by itself: a state for each of its bytes, or a class of both of its
cases. -/
def charBytes (mode : Mode) (c : Char) : Nat :=
  if mode.caseless && (c.isAlpha || 0x80 ≤ c.toNat) then 2 * stateBytes + itemBytes mode c
  else stateBytes * c.utf8Size

mutual

/-- The size of the items of a class, without the two states that every class has. -/
def Class.bytes (mode : Mode) : Class → Bytes
  | .literal l => .both (itemBytes mode l.char)
  | .range _ low high => .both (max (itemBytes mode low.char) (itemBytes mode high.char))
  | .ascii _ _ negated =>
    if negated && mode.unicode then dotBytes mode else .both (4 * rangeBytes)
  | .property _ _ query => query.bytes
  | .perl _ negated kind => kind.bytes mode negated
  | .bracketed _ negated contents =>
    let inner := Class.bytes mode contents
    if negated && mode.unicode then inner.add (dotBytes mode) else inner
  | .union _ items => Class.bytesOfItems mode items
  | .binary _ op left right =>
    let left := Class.bytes mode left
    let right := Class.bytes mode right
    match op with
    | .intersection => left.meet right
    | .difference => left
    | .symmetricDifference => left.add right

/-- The size of several items. -/
def Class.bytesOfItems (mode : Mode) : List Class → Bytes
  | [] => .both 0
  | item :: rest => (Class.bytes mode item).add (Class.bytesOfItems mode rest)

end

/-- The machine of a class: one literal alone is no class. -/
def Class.machineBytes (mode : Mode) : Class → Bytes
  | .bracketed _ false (.literal l) => .both (charBytes mode l.char)
  | .perl _ negated kind => kind.bytes mode negated
  | .property _ _ query => query.bytes
  | contents => (contents.bytes mode).add (.both (2 * stateBytes))

/-! ## Machines -/

/-- A machine: its size, whether it takes nothing but the empty text, and whether it takes the
empty text at all. -/
structure Machine where
  bytes : Bytes
  onlyEmpty : Bool
  takesEmpty : Bool
deriving DecidableEq, Repr

namespace Machine

/-- A machine that takes the empty text in one state. -/
def empty : Machine := ⟨.both stateBytes, true, true⟩

/-- A machine that takes one character. -/
def char (bytes : Bytes) : Machine := ⟨bytes, false, false⟩

/-- One machine after another. -/
def andThen (a b : Machine) : Machine :=
  ⟨a.bytes.add b.bytes, a.onlyEmpty && b.onlyEmpty, a.takesEmpty && b.takesEmpty⟩

/-- One machine or another. The state that branches to them is counted apart. -/
def orElse (a b : Machine) : Machine :=
  ⟨a.bytes.add b.bytes, a.onlyEmpty && b.onlyEmpty, a.takesEmpty || b.takesEmpty⟩

/-- A machine with more states that take no text. -/
def grow (n : Nat) (a : Machine) : Machine := { a with bytes := a.bytes.add (.both n) }

/-- A group that is captured has a state at either end, in the forward machine alone. -/
def captured (a : Machine) : Machine :=
  { a with bytes := a.bytes.add ⟨2 * stateBytes, 0⟩ }

/-- Copies of a machine one after another. -/
def copies (n : Nat) (a : Machine) : Machine :=
  if n = 0 then .empty else { a with bytes := a.bytes.times n }

/-- A machine that is repeated at least so often. -/
def atLeast (n : Nat) (a : Machine) : Machine :=
  if n = 0 then
    let loop := if a.takesEmpty then 2 * branchBytes 2 + stateBytes else branchBytes 2
    { a.grow loop with takesEmpty := true }
  else (a.copies n).grow (branchBytes 2)

/-- A machine that is repeated between `least` and `most` times: every copy beyond the least has a
state to leave by. -/
def between (least most : Nat) (a : Machine) : Machine :=
  if least = most then a.copies least
  else
    let more := (most - least) * branchBytes 2
    let optional := (a.bytes.times (most - least)).add (.both (more + stateBytes))
    let needed := if least = 0 && most = 1 then Bytes.both 0 else (a.copies least).bytes
    ⟨needed.add optional, a.onlyEmpty, least = 0 || a.takesEmpty⟩

/-- A machine repeated. What takes the empty text alone is repeated at most once. -/
def repeated (count : Repeat) (a : Machine) : Machine :=
  let clip (n : Nat) : Nat := if a.onlyEmpty then min n 1 else n
  match count with
  | .exactly n => a.copies (clip n)
  | .atLeast n => a.atLeast (clip n)
  | .between least most => a.between (clip least) (clip most)

end Machine

mutual

/-- The machine of a pattern, and the mode behind it. -/
def Node.machine (mode : Mode) : Node → Mode × Machine
  | .empty _ | .assertion _ => (mode, .empty)
  | .flags _ items => (mode.set items, .empty)
  | .literal l => (mode, .char (.both (charBytes mode l.char)))
  | .dot _ => (mode, .char (dotBytes mode))
  | .class_ contents => (mode, .char (contents.machineBytes mode))
  | .repetition _ count body => (mode, (Node.machine mode body).2.repeated count)
  | .group _ captures items body =>
    let inner := (Node.machine (mode.set items) body).2
    (mode, if captures then inner.captured else inner)
  | .alternation _ branches =>
    let (mode, machine) := Node.machineOfBranches mode branches
    (mode, machine.grow (branchBytes branches.length + stateBytes))
  | .concat _ parts => Node.machineOfParts mode parts

/-- The machine of parts one after another. -/
def Node.machineOfParts (mode : Mode) : List Node → Mode × Machine
  | [] => (mode, ⟨.both 0, true, true⟩)
  | part :: rest =>
    let (mode, first) := Node.machine mode part
    let (mode, others) := Node.machineOfParts mode rest
    (mode, first.andThen others)

/-- The machine of branches, of which one is taken. -/
def Node.machineOfBranches (mode : Mode) : List Node → Mode × Machine
  | [] => (mode, ⟨.both 0, true, false⟩)
  | branch :: rest =>
    let (mode, first) := Node.machine mode branch
    let (mode, others) := Node.machineOfBranches mode rest
    (mode, first.orElse others)

end

/-- The states around every pattern: the search for its start and the capture of the whole, in
the forward machine, and the match. -/
def frame : Bytes := ⟨branchBytes 2 + 4 * stateBytes, branchBytes 2 + 2 * stateBytes⟩

/-- Whether both machines of a pattern keep within the limit. -/
def Node.fits (node : Node) : Bool :=
  (((node.machine {}).2.bytes).add frame).fits sizeLimit

end OpenApi.Pattern
