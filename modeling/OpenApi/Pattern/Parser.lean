-- SUMMARY: Reading a pattern into its syntax tree.
import OpenApi.Pattern.Scanner
import OpenApi.Text.Letter

/-!
# Reading patterns

A sequence of parts ends at the end of the pattern or at a closing parenthesis;
bars divide it into branches. Flags in parentheses of their own hold up to the end
of the group they stand in. Every step takes at least one character, so the number
of characters bounds the depth of the recursion.
-/

namespace OpenApi.Pattern

/-! ## Classes -/

/-- The names of classes between colons. -/
def asciiClassNames : List String :=
  ["alnum", "alpha", "ascii", "blank", "cntrl", "digit", "graph", "lower", "print", "punct",
   "space", "upper", "word", "xdigit"]

/-- The items of a class read so far, last first. -/
structure ClassItems where
  start : Place
  reversed : List Class := []

namespace ClassItems

def push (items : ClassItems) (item : Class) : ClassItems :=
  { start := if items.reversed.isEmpty then item.span.start else items.start,
    reversed := item :: items.reversed }

/-- The items as one class. -/
def close (items : ClassItems) : Class :=
  match items.reversed with
  | [item] => item
  | [] => .union items.start.here []
  | last :: _ => .union ⟨items.start, last.span.stop⟩ items.reversed.reverse

end ClassItems

/-- Apply the operation that waits for its right side. -/
def applyOp (pending : Option (ClassOp × Class)) (right : Class) : Class :=
  match pending with
  | none => right
  | some (op, left) => .binary ⟨left.span.start, right.span.stop⟩ op left right

namespace Scanner

/-- A class between colons, if its name is known. -/
def asciiClass? (s : Scanner) : Option (Class × Scanner) :=
  match s.skip? "[:" with
  | none => none
  | some inner =>
    let negated := inner.sees '^'
    let inner := if negated then inner.bump else inner
    let name := inner.rest.takeWhile (· ≠ ':')
    let behind := inner.skipOver name (inner.rest.drop name.length)
    match behind.skip? ":]" with
    | none => none
    | some behind =>
      if asciiClassNames.contains (String.ofList name) then
        some (.ascii (behind.spanFrom s.place) (String.ofList name) negated, behind)
      else none

/-- One end of a range, or an item of its own. -/
def classAtom (s : Scanner) : Except Error (Atom × Scanner) :=
  match s.rest with
  | '\\' :: _ => s.escape
  | c :: _ => .ok (.literal ⟨s.charSpan, c, false⟩, s.bump)
  | [] => .error ⟨s.place.here, .classUnclosed⟩

/-- An atom as an item of a class. -/
def Atom.toItem : Atom → Except Error Class
  | .literal l => .ok (.literal l)
  | .perl span negated kind => .ok (.perl span negated kind)
  | .property span negated query => .ok (.property span negated query)
  | atom => .error ⟨atom.span, .classEscape⟩

/-- An atom as an end of a range. -/
def Atom.toBoundary : Atom → Except Error Literal
  | .literal l => .ok l
  | atom => .error ⟨atom.span, .classRangeBoundary⟩

/-- The character behind the next one. In free spacing, blanks and the mark of one comment are
passed over if anything follows them. -/
def peekSpaced (s : Scanner) : Option Char :=
  let behind := s.rest.drop 1
  if s.freeSpacing then
    let passed := behind.dropWhile Text.isBlank
    let passed :=
      if passed.head? == some '#' then (passed.drop 1).dropWhile Text.isBlank else passed
    passed.head?.or behind.head?
  else behind.head?

/-- A range or a single item of a class whose opening bracket is at `opened`. -/
def classRange (opened : Span) (s : Scanner) : Except Error (Class × Scanner) := do
  let (first, s) ← s.classAtom
  let s := s.bumpSpace
  if s.atEnd then .error ⟨opened, .classUnclosed⟩
  else if !s.sees '-' || s.peekSpaced == some ']' || s.peekSpaced == some '-' then
    .ok (← Atom.toItem first, s)
  else
    let s := s.bumpAndSpace
    if s.atEnd then .error ⟨opened, .classUnclosed⟩
    else
      let (second, s) ← s.classAtom
      let span : Span := ⟨first.span.start, second.span.stop⟩
      let low ← Atom.toBoundary first
      let high ← Atom.toBoundary second
      if low.char ≤ high.char then .ok (.range span low high, s)
      else .error ⟨span, .classRangeOrder⟩

/-- Dashes at the start of a class stand for themselves. -/
def leadingDashes (start : Place) : Nat → ClassItems → Scanner → Except Error (ClassItems × Scanner)
  | 0, items, s => .ok (items, s)
  | fuel + 1, items, s =>
    if s.sees '-' then
      let items := items.push (.literal ⟨s.charSpan, '-', false⟩)
      let s := s.bumpAndSpace
      if s.atEnd then .error ⟨start.here, .classUnclosed⟩ else leadingDashes start fuel items s
    else .ok (items, s)

/-- The opening of a class: whether it is negated, its span, and the dashes or the bracket that
stand for themselves at its start. -/
def openClass (s : Scanner) : Except Error ((Bool × Span × ClassItems) × Scanner) := do
  let start := s.place
  let s := s.bumpAndSpace
  if s.atEnd then .error ⟨s.spanFrom start, .classUnclosed⟩
  else
    let negated := s.sees '^'
    let s := if negated then s.bumpAndSpace else s
    if s.atEnd then .error ⟨s.spanFrom start, .classUnclosed⟩
    else
      let (items, s) ← leadingDashes start s.rest.length { start := s.place } s
      if items.reversed.isEmpty && s.sees ']' then
        let items := items.push (.literal ⟨s.charSpan, ']', false⟩)
        let s := s.bumpAndSpace
        if s.atEnd then .error ⟨s.spanFrom start, .classUnclosed⟩
        else .ok ((negated, s.spanFrom start, items), s)
      else .ok ((negated, s.spanFrom start, items), s)

/-- The contents of a class up to its closing bracket. -/
def classBody (opened : Span) (negated : Bool) :
    Nat → Option (ClassOp × Class) → ClassItems → Scanner → Except Error (Class × Scanner)
  | 0, _, _, _ => .error ⟨opened, .classUnclosed⟩
  | fuel + 1, pending, items, s =>
    let s := s.bumpSpace
    let operator (op : ClassOp) : Except Error (Class × Scanner) :=
      let s := s.bump.bump
      classBody opened negated fuel (some (op, applyOp pending items.close)) { start := s.place } s
    match s.rest with
    | [] => .error ⟨opened, .classUnclosed⟩
    | '[' :: _ =>
      match s.asciiClass? with
      | some (item, s) => classBody opened negated fuel pending (items.push item) s
      | none =>
        match s.openClass with
        | .error e => .error e
        | .ok ((innerNegated, innerOpened, innerItems), s) =>
          match classBody innerOpened innerNegated fuel none innerItems s with
          | .error e => .error e
          | .ok (item, s) => classBody opened negated fuel pending (items.push item) s
    | ']' :: _ =>
      let s := s.bump
      .ok (.bracketed ⟨opened.start, s.place⟩ negated (applyOp pending items.close), s)
    | '&' :: '&' :: _ => operator .intersection
    | '-' :: '-' :: _ => operator .difference
    | '~' :: '~' :: _ => operator .symmetricDifference
    | _ =>
      match s.classRange opened with
      | .error e => .error e
      | .ok (item, s) => classBody opened negated fuel pending (items.push item) s

/-- A class in brackets. -/
def bracketed (s : Scanner) : Except Error (Class × Scanner) := do
  let ((negated, opened, items), s) ← s.openClass
  classBody opened negated (s.rest.length + 1) none items s

/-! ## Repetitions -/

/-- Whether a part can be repeated. -/
def repeatable? (parts : List Node) : Option (Node × List Node) :=
  match parts with
  | [] => none
  | .empty _ :: _ => none
  | .flags .. :: _ => none
  | part :: rest => some (part, rest)

/-- Repeat the last part by an operator of one character. -/
def repeatSimply (count : Repeat) (parts : List Node) (s : Scanner) : Except Error (List Node × Scanner) :=
  match repeatable? parts with
  | none => .error ⟨s.place.here, .repeatsNothing⟩
  | some (part, rest) =>
    let s := s.bump
    let s := if s.sees '?' then s.bump else s
    .ok (.repetition ⟨part.span.start, s.place⟩ count part :: rest, s)

/-- The counts between braces, up to the closing brace. -/
def counts (start : Place) (s : Scanner) : Except Error (Repeat × Scanner) :=
  let s := s.bumpAndSpace
  if s.atEnd then .error ⟨s.spanFrom start, .countUnclosed⟩
  else
    let (least, s) := s.decimal
    if s.atEnd then .error ⟨s.spanFrom start, .countUnclosed⟩
    else if s.sees ',' then
      let s := s.bumpAndSpace
      if s.atEnd then .error ⟨s.spanFrom start, .countUnclosed⟩
      else if s.sees '\x7d' then least.map fun n => (.atLeast n, s)
      else
        match least with
        | .error e => .error e
        | .ok least =>
          let (most, s) := s.decimal
          most.map fun most => (.between least most, s)
    else least.map fun n => (.exactly n, s)

/-- Repeat the last part as often as braces say. -/
def repeatCounted (parts : List Node) (s : Scanner) : Except Error (List Node × Scanner) :=
  match repeatable? parts with
  | none => .error ⟨s.place.here, .repeatsNothing⟩
  | some (part, rest) =>
    let start := s.place
    match counts start s with
    | .error e => .error e
    | .ok (count, s) =>
      if !s.sees '\x7d' then .error ⟨s.spanFrom start, .countUnclosed⟩
      else
        let s := s.bumpAndSpace
        let s := if s.sees '?' then s.bump else s
        match count with
        | .between least most =>
          if most < least then .error ⟨s.spanFrom start, .countOrder⟩
          else .ok (.repetition ⟨part.span.start, s.place⟩ count part :: rest, s)
        | _ => .ok (.repetition ⟨part.span.start, s.place⟩ count part :: rest, s)

/-! ## Groups -/

/-- Whether a character may stand in the name of a group. -/
def isNameChar (first : Bool) (c : Char) : Bool :=
  if first then c = '_' || Text.isLetter c
  else c = '_' || c = '.' || c = '[' || c = ']' || Text.isLetterOrNumber c

/-- The characters of a name up to the closing angle bracket. -/
def nameChars : Nat → Bool → Scanner → Except Error (List Char × Scanner)
  | 0, _, s => .ok ([], s)
  | fuel + 1, first, s =>
    match s.rest with
    | [] => .ok ([], s)
    | c :: _ =>
      if c = '>' then .ok ([], s)
      else if isNameChar first c then
        match nameChars fuel false s.bump with
        | .ok (name, s) => .ok (c :: name, s)
        | .error e => .error e
      else .error ⟨s.charSpan, .nameInvalid⟩

/-- The names of groups with their spans. -/
abbrev Names := List (String × Span)

/-- A name of a group that is not taken yet. -/
def groupName (names : Names) (s : Scanner) : Except Error (Names × Scanner) := do
  let start := s.place
  let (name, s) ← nameChars s.rest.length true s
  let span := s.spanFrom start
  if s.atEnd then .error ⟨s.place.here, .nameUnfinished⟩
  else if name.isEmpty then .error ⟨start.here, .nameEmpty⟩
  else
    match names.find? (·.1 == String.ofList name) with
    | some (_, earlier) => .error ⟨span, .nameRepeated earlier⟩
    | none => .ok ((String.ofList name, span) :: names, s.bump)

/-- What a parenthesis opens. -/
inductive Opening where
  /-- Flags for the rest of the group around them. -/
  | flags (span : Span) (items : List FlagItem)
  /-- A group, captured or with flags of its own. -/
  | group (span : Span) (captures : Bool) (flags : List FlagItem)

/-- Read the opening of a group. -/
def opening (names : Names) (s : Scanner) : Except Error (Opening × Names × Scanner) := do
  let opened := s.charSpan
  let s := s.bump.bumpSpace
  let looks := ["?=", "?!", "?<=", "?<!"].filterMap s.skip?
  match looks with
  | behind :: _ => .error ⟨⟨opened.start, behind.place⟩, .lookAround⟩
  | [] =>
    let inner := s.place.here
    match (s.skip? "?P<").or (s.skip? "?<") with
    | some s =>
      let (names, s) ← groupName names s
      .ok (.group opened true [], names, s)
    | none =>
      match s.skip? "?" with
      | none => .ok (.group opened true [], names, s)
      | some s =>
        if s.atEnd then .error ⟨opened, .groupUnclosed⟩
        else
          let (items, s) ← flagItems s.rest.length [] s
          let closed := s.sees ')'
          let s := s.bump
          if !closed then .ok (.group opened false items, names, s)
          else if items.isEmpty then .error ⟨inner, .repeatsNothing⟩
          else .ok (.flags ⟨opened.start, s.place⟩ items, names, s)

/-! ## Sequences -/

/-- The part of a sequence that has been read. -/
structure Progress where
  /-- Where the current branch starts. -/
  start : Place
  /-- Where the first branch starts. -/
  first : Place
  /-- The parts of the current branch, last first. -/
  parts : List Node := []
  /-- The branches before it, last first. -/
  branches : List Node := []
  names : Names

/-- A sequence that starts here. -/
def Progress.begin (names : Names) (s : Scanner) : Progress :=
  { start := s.place, first := s.place, names := names }

/-- The current branch as one part. -/
def Progress.branch (p : Progress) (s : Scanner) : Node :=
  Node.ofParts (s.spanFrom p.start) p.parts.reverse

/-- Everything that has been read as one part. -/
def Progress.node (p : Progress) (s : Scanner) : Node :=
  if p.branches.isEmpty then p.branch s
  else .alternation (s.spanFrom p.first) (p.branch s :: p.branches).reverse

/-- Read a sequence up to the end, or up to the closing parenthesis of the group that was opened
at `opened`. Comes with the names of groups so far and the scanner behind. -/
def sequence (opened : Option Span) :
    Nat → Progress → Scanner → Except Error (Node × Names × Scanner)
  | 0, _, s => .error ⟨s.place.here, .groupUnclosed⟩
  | fuel + 1, p, s =>
    let s := s.bumpSpace
    let add (result : Except Error (List Node × Scanner)) : Except Error (Node × Names × Scanner) :=
      match result with
      | .error e => .error e
      | .ok (parts, s) => sequence opened fuel { p with parts := parts } s
    match s.rest with
    | [] =>
      match opened with
      | some span => .error ⟨span, .groupUnclosed⟩
      | none => .ok (p.node s, p.names, s)
    | '(' :: _ =>
      match s.opening p.names with
      | .error e => .error e
      | .ok (.flags span items, names, after) =>
        let free := (flagState .freeSpacing items).getD s.freeSpacing
        sequence opened fuel { p with parts := .flags span items :: p.parts, names := names }
          { after with freeSpacing := free }
      | .ok (.group span captures items, names, after) =>
        let free := (flagState .freeSpacing items).getD s.freeSpacing
        let inner := { after with freeSpacing := free }
        match sequence (some span) fuel (Progress.begin names inner) inner with
        | .error e => .error e
        | .ok (body, names, after) =>
          let after := { after with freeSpacing := s.freeSpacing }
          let group := Node.group ⟨span.start, after.place⟩ captures items body
          sequence opened fuel { p with parts := group :: p.parts, names := names } after
    | ')' :: _ =>
      match opened with
      | some _ => .ok (p.node s, p.names, s.bump)
      | none => .error ⟨s.charSpan, .groupUnopened⟩
    | '|' :: _ =>
      let next := s.bump
      sequence opened fuel
        { p with start := next.place, parts := [], branches := p.branch s :: p.branches } next
    | '[' :: _ => add (s.bracketed.map fun (contents, s) => (.class_ contents :: p.parts, s))
    | '?' :: _ => add (repeatSimply (.between 0 1) p.parts s)
    | '*' :: _ => add (repeatSimply (.atLeast 0) p.parts s)
    | '+' :: _ => add (repeatSimply (.atLeast 1) p.parts s)
    | '\x7b' :: _ => add (repeatCounted p.parts s)
    | _ =>
      add (s.atom.map fun (atom, s) =>
        let node : Node :=
          match atom with
          | .literal l => .literal l
          | .dot span => .dot span
          | .assertion span => .assertion span
          | .perl span negated kind => .class_ (.perl span negated kind)
          | .property span negated query => .class_ (.property span negated query)
        (node :: p.parts, s))

end Scanner

/-- The syntax tree of a pattern. -/
def parse (pattern : String) : Except Error Node :=
  let s : Scanner := { rest := pattern.toList, place := Place.start }
  (Scanner.sequence none (s.rest.length + 1) (Scanner.Progress.begin [] s) s).map (·.1)

end OpenApi.Pattern
