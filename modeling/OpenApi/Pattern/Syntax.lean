-- SUMMARY: The syntax tree of a pattern, with the span of every part.

/-!
# Patterns

A pattern is a regular expression: literals, classes, assertions, groups,
repetitions, alternations and concatenations. Every part knows its span, so that
an error can point at it. Columns count characters.
-/

namespace OpenApi.Pattern

/-! ## Places -/

/-- A place in a pattern: the characters before it, its line and its column, the latter two
counted from one. -/
structure Place where
  offset : Nat
  line : Nat
  column : Nat
deriving DecidableEq, Repr

/-- The start of a pattern. -/
def Place.start : Place := ⟨0, 1, 1⟩

/-- The place behind a character. -/
def Place.after (p : Place) (c : Char) : Place :=
  if c = '\n' then ⟨p.offset + 1, p.line + 1, 1⟩ else ⟨p.offset + 1, p.line, p.column + 1⟩

/-- From one place up to another. -/
structure Span where
  start : Place
  stop : Place
deriving DecidableEq, Repr

/-- The empty span at a place. -/
def Place.here (p : Place) : Span := ⟨p, p⟩

/-! ## Classes -/

/-- One character of a pattern. -/
structure Literal where
  span : Span
  char : Char
  /-- Written as `\x` with two digits, which may mean a byte. -/
  isByte : Bool
deriving DecidableEq, Repr

/-- The classes with a letter of their own. -/
inductive PerlKind where
  | digit | space | word
deriving DecidableEq, Repr

/-- How a property of characters is named. -/
inductive PropertyQuery where
  | named (name : String)
  | valued (name value : String)
deriving DecidableEq, Repr

/-- The operations on classes. -/
inductive ClassOp where
  | intersection | difference | symmetricDifference
deriving DecidableEq, Repr

/-- The contents of a class. -/
inductive Class where
  | literal (literal : Literal)
  | range (span : Span) (low high : Literal)
  | ascii (span : Span) (name : String) (negated : Bool)
  | property (span : Span) (negated : Bool) (query : PropertyQuery)
  | perl (span : Span) (negated : Bool) (kind : PerlKind)
  | bracketed (span : Span) (negated : Bool) (contents : Class)
  | union (span : Span) (items : List Class)
  | binary (span : Span) (op : ClassOp) (left right : Class)

/-- The span of a class. -/
def Class.span : Class → Span
  | .literal l => l.span
  | .range span .. | .ascii span .. | .property span .. | .perl span .. | .bracketed span ..
  | .union span _ | .binary span .. => span

/-! ## Expressions -/

/-- The flags of a pattern. -/
inductive Flag where
  | caseInsensitive | multiLine | dotAll | swapGreed | unicode | crlf | freeSpacing
deriving DecidableEq, Repr

/-- What stands in a list of flags; `none` turns off the flags that follow. -/
structure FlagItem where
  span : Span
  flag : Option Flag
deriving DecidableEq, Repr

/-- Whether a list of flags turns a flag on or off. -/
def flagState (flag : Flag) (items : List FlagItem) : Option Bool :=
  (items.foldl (fun (on, state) item =>
    match item.flag with
    | none => (false, state)
    | some f => (on, if f = flag then some on else state)) (true, none)).2

/-- How often an expression is repeated. -/
inductive Repeat where
  | exactly (count : Nat)
  | atLeast (count : Nat)
  | between (least most : Nat)
deriving DecidableEq, Repr

/-- A pattern. -/
inductive Node where
  | empty (span : Span)
  | flags (span : Span) (items : List FlagItem)
  | literal (literal : Literal)
  | dot (span : Span)
  | assertion (span : Span)
  | class_ (contents : Class)
  | repetition (span : Span) (count : Repeat) (body : Node)
  | group (span : Span) (captures : Bool) (flags : List FlagItem) (body : Node)
  | alternation (span : Span) (branches : List Node)
  | concat (span : Span) (parts : List Node)

/-- The span of a pattern. -/
def Node.span : Node → Span
  | .literal l => l.span
  | .class_ contents => contents.span
  | .empty span | .flags span _ | .dot span | .assertion span | .repetition span ..
  | .group span .. | .alternation span _ | .concat span _ => span

/-- A sequence of parts: nothing, one part alone, or several. -/
def Node.ofParts (span : Span) : List Node → Node
  | [] => .empty span
  | [part] => part
  | parts => .concat span parts

end OpenApi.Pattern
