-- SUMMARY: Whether a text is a pattern: syntax, depth, classes that make sense for text, size.
import OpenApi.Pattern.Parser
import OpenApi.Pattern.Machine

/-!
# Checking patterns

A pattern has to be read without an error, may be nested to a limited depth, may
only ask for properties that are known, and may only take a limited size. While the Unicode flag is off it stands
for bytes: properties are not allowed, and nothing may match a byte that is no
character of its own.
-/

namespace OpenApi.Pattern

/-! ## Depth -/

/-- The greatest number of parts inside each other. -/
def nestLimit : Nat := 250

/-- One level further in. -/
def deeper (depth : Nat) (span : Span) : Except Error Unit :=
  if depth < nestLimit then .ok () else .error ⟨span, .nestedTooDeep nestLimit⟩

mutual

/-- The contents of a class inside `depth` parts. -/
def Class.checkDepth (depth : Nat) : Class → Except Error Unit
  | .bracketed span _ contents => do
    deeper depth span
    Class.checkDepth (depth + 1) contents
  | .union span items => do
    if !items.isEmpty then deeper depth span
    Class.checkDepths (depth + 1) items
  | .binary span _ left right => do
    deeper depth span
    Class.checkDepth (depth + 1) left
    Class.checkDepth (depth + 1) right
  | _ => .ok ()

/-- Each of several classes. -/
def Class.checkDepths (depth : Nat) : List Class → Except Error Unit
  | [] => .ok ()
  | item :: rest => do
    Class.checkDepth depth item
    Class.checkDepths depth rest

end

mutual

/-- A pattern inside `depth` parts. -/
def Node.checkDepth (depth : Nat) : Node → Except Error Unit
  | .class_ contents => contents.checkDepth depth
  | .repetition span _ body => do
    deeper depth span
    Node.checkDepth (depth + 1) body
  | .group span _ _ body => do
    deeper depth span
    Node.checkDepth (depth + 1) body
  | .alternation span branches => do
    deeper depth span
    Node.checkDepths (depth + 1) branches
  | .concat span parts => do
    deeper depth span
    Node.checkDepths (depth + 1) parts
  | _ => .ok ()

/-- Each of several patterns. -/
def Node.checkDepths (depth : Nat) : List Node → Except Error Unit
  | [] => .ok ()
  | part :: rest => do
    Node.checkDepth depth part
    Node.checkDepths depth rest

end

/-! ## Text and bytes -/

/-- A property that is asked for where `unicode` says whether the pattern stands for text. -/
def checkProperty (unicode : Bool) (span : Span) (query : PropertyQuery) : Except Error Unit :=
  if unicode then query.check.mapError fun cause => ⟨span, cause⟩ else .error ⟨span, .unicodeOff⟩

/-- A literal in a class of bytes. -/
def checkByte (literal : Literal) : Except Error Unit :=
  if literal.char.toNat < 0x80 then .ok ()
  else .error ⟨literal.span, if literal.isByte then .notText else .unicodeOff⟩

mutual

/-- Check a class. For a class of bytes the result says whether it holds the bytes that are no
characters of their own; it holds all of them or none. -/
def Class.check (unicode : Bool) : Class → Except Error Bool
  | .literal l => if unicode then .ok false else (checkByte l).map fun _ => false
  | .range _ low high =>
    if unicode then .ok false
    else do
      checkByte low
      checkByte high
      .ok false
  | .ascii _ _ negated => .ok negated
  | .property span _ query => (checkProperty unicode span query).map fun _ => false
  | .perl span negated _ => if !unicode && negated then .error ⟨span, .notText⟩ else .ok false
  | .bracketed span negated contents => do
    let high ← Class.check unicode contents
    if !unicode && high ≠ negated then .error ⟨span, .notText⟩ else .ok false
  | .union _ items => Class.checkItems unicode items
  | .binary _ op left right => do
    let left ← Class.check unicode left
    let right ← Class.check unicode right
    .ok (match op with
      | .intersection => left && right
      | .difference => left && !right
      | .symmetricDifference => left ≠ right)

/-- Check the items of a class. -/
def Class.checkItems (unicode : Bool) : List Class → Except Error Bool
  | [] => .ok false
  | item :: rest => do
    let high ← Class.check unicode item
    let others ← Class.checkItems unicode rest
    .ok (high || others)

end

mutual

/-- Check a pattern; the result says whether the Unicode flag is on behind it. -/
def Node.check (unicode : Bool) : Node → Except Error Bool
  | .empty _ | .assertion _ => .ok unicode
  | .flags _ items => .ok ((flagState .unicode items).getD unicode)
  | .literal l =>
    if !unicode && l.isByte && 0x80 ≤ l.char.toNat then .error ⟨l.span, .notText⟩
    else .ok unicode
  | .dot span => if unicode then .ok unicode else .error ⟨span, .notText⟩
  | .class_ contents => (contents.check unicode).map fun _ => unicode
  | .repetition _ _ body => Node.check unicode body
  | .group _ _ items body =>
    (Node.check ((flagState .unicode items).getD unicode) body).map fun _ => unicode
  | .alternation _ branches => Node.checkAll unicode branches
  | .concat _ parts => Node.checkAll unicode parts

/-- Check patterns one after another. -/
def Node.checkAll (unicode : Bool) : List Node → Except Error Bool
  | [] => .ok unicode
  | part :: rest => do
    let unicode ← Node.check unicode part
    Node.checkAll unicode rest

end

/-- Read a text as a pattern that makes sense for text. -/
def readChecked (pattern : String) : Except Error Node := do
  let node ← parse pattern
  node.checkDepth 0
  let _ ← node.check true
  .ok node

/-! ## Refusals -/

/-- Why a text is refused as a pattern. -/
inductive Refusal where
  | malformed (error : Error)
  | tooLarge (limit : Nat)
deriving DecidableEq, Repr

/-- The message for a refusal of a pattern. -/
def Refusal.message (pattern : String) : Refusal → String
  | .malformed error => error.message pattern
  | .tooLarge limit => "Compiled regex exceeds size limit of " ++ toString limit ++ " bytes."

/-- Check a text to be a pattern. -/
def check (pattern : String) : Except Refusal Unit :=
  match readChecked pattern with
  | .error error => .error (.malformed error)
  | .ok node => if node.fits then .ok () else .error (.tooLarge sizeLimit)

end OpenApi.Pattern
