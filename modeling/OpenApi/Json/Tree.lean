-- SUMMARY: A JSON text as a tree of places, and the value it stands for.
import OpenApi.Json.Fault
import OpenApi.Json

/-!
# Located trees

A tree is what one reading of a text finds: where each value starts and ends and
what is wrong with it. A fault that only matters to a reader of the value (an
unpaired surrogate, a number out of range, too many levels) stands at its leaf or
container while the reading goes on; at any other fault the reading stops, and
the tree is cut there.

Next to each item and member stands the offset at which a reader comes to rest
that gives up after it: behind the blanks, and behind the closing bracket if that
comes next.
-/

namespace OpenApi.Json

/-- What follows an item of a list, for a reader that wants no more items. -/
structure Pause where
  /-- The offset at which the reader rests. -/
  rest : Nat
  /-- Why the list does not end here; `none` if it does. -/
  refusal : Option Fault
deriving DecidableEq, Repr

/-- A key of an object. -/
structure Key where
  /-- The text of the key. -/
  name : Except Fault String
  /-- The offset at which a reader rests that gives up after the key. -/
  rest : Nat

/-- How the members of an object end. -/
inductive Ending where
  /-- With a closing brace; the offset behind it. -/
  | closed (stop : Nat)
  /-- Where a key, a separator or the brace was expected. -/
  | cut (breach : Breach)
  /-- After a key without a colon. -/
  | colonless (key : Key) (fault : Fault)

/-- A JSON text, as far as it could be read. -/
inductive Tree where
  /-- A word, a number or a string: where it starts and stops, and its value. -/
  | leaf (start stop : Nat) (value : Except Fault Json)
  /-- A list; `deep` if it lies inside too many containers. -/
  | list (start : Nat) (deep : Bool) (items : List (Tree × Pause)) (ending : Except Breach Nat)
  /-- An object; each member has its key, its value and where a reader rests after it. -/
  | record (start : Nat) (deep : Bool) (members : List (Key × Tree × Nat)) (ending : Ending)
  /-- No value. -/
  | broken (breach : Breach)

/-! ## Places -/

/-- A step from a value to a value inside it. -/
inductive Step where
  | key (name : String)
  | index (place : Nat)
  /-- Where no key is known. -/
  | unknown
deriving DecidableEq, Repr

/-- The text of a place: steps joined by points, `.` for the whole. -/
def Step.pathText : List Step → String
  | [] => "."
  | first :: rest => text first ++ String.join (rest.map joined)
where
  text : Step → String
    | .key name => name
    | .index place => "[" ++ toString place ++ "]"
    | .unknown => "?"
  joined : Step → String
    | .index place => "[" ++ toString place ++ "]"
    | step => "." ++ text step

/-- A fault and the place of the value in which it lies. -/
structure Located (α : Type) where
  path : List Step
  fault : α

/-- Go one level out. -/
def Located.inside {α : Type} (step : Step) (located : Located α) : Located α :=
  { located with path := step :: located.path }

/-! ## Values of trees -/

mutual

/-- Objects with each key once: a repeated key keeps its first place and takes the last value. -/
def distinct : Json → Json
  | .arr items => .arr (distinctItems items)
  | .obj members => .obj (Keyed.ofList (distinctMembers members))
  | value => value

/-- Items with each key once. -/
def distinctItems : List Json → List Json
  | [] => []
  | x :: xs => distinct x :: distinctItems xs

/-- The values of members with each key once. -/
def distinctMembers : List (String × Json) → List (String × Json)
  | [] => []
  | (key, value) :: rest => (key, distinct value) :: distinctMembers rest

end

namespace Tree

/-- The fault of entering a container that lies too deep. -/
def enter (start : Nat) (deep : Bool) : Except (Located Fault) Unit :=
  if deep then .error ⟨[], ⟨start + 1, .nestedTooDeep⟩⟩ else .ok ()

/-- The fault at the end of a list. -/
def endItems : Except Breach Nat → Except (Located Fault) Unit
  | .ok _ => .ok ()
  | .error breach => .error ⟨[], breach.strict⟩

/-- The text of a key. A fault of a key lies where no key is known. -/
def keyName (key : Key) : Except (Located Fault) String :=
  key.name.mapError fun fault => ⟨[.unknown], fault⟩

/-- The fault at the end of an object. -/
def endMembers : Ending → Except (Located Fault) Unit
  | .closed _ => .ok ()
  | .cut breach => .error ⟨[.unknown], breach.strict⟩
  | .colonless key fault => do
    let _ ← keyName key
    .error ⟨[], fault⟩

mutual

/-- The value of a tree with all members of its objects, or the first fault on the way to it. -/
def contents : Tree → Except (Located Fault) Json
  | .leaf _ _ value => value.mapError fun fault => ⟨[], fault⟩
  | .list start deep items ending => do
    enter start deep
    let items ← contentsItems 0 items
    endItems ending
    .ok (.arr items)
  | .record start deep members ending => do
    enter start deep
    let members ← contentsMembers members
    endMembers ending
    .ok (.obj members)
  | .broken breach => .error ⟨[], breach.strict⟩

/-- The values of items from the given place on. -/
def contentsItems (place : Nat) : List (Tree × Pause) → Except (Located Fault) (List Json)
  | [] => .ok []
  | (tree, _) :: rest => do
    let item ← (contents tree).mapError (·.inside (.index place))
    let items ← contentsItems (place + 1) rest
    .ok (item :: items)

/-- The keys and values of members, in order. -/
def contentsMembers : List (Key × Tree × Nat) → Except (Located Fault) (List (String × Json))
  | [] => .ok []
  | (key, tree, _) :: rest => do
    let name ← keyName key
    let member ← (contents tree).mapError (·.inside (.key name))
    let members ← contentsMembers rest
    .ok ((name, member) :: members)

end

/-- The value of a tree, or the first fault on the way to it. -/
def value (tree : Tree) : Except (Located Fault) Json := tree.contents.map distinct

mutual

/-- The first fault for a reader that skips the tree. -/
def lenientFault : Tree → Option Fault
  | .leaf _ _ _ => none
  | .list _ _ items ending =>
    (lenientItems items).or (match ending with
      | .ok _ => none
      | .error breach => some breach.lenient)
  | .record _ _ members ending =>
    (lenientMembers members).or (match ending with
      | .closed _ => none
      | .cut breach => some breach.lenient
      | .colonless _ fault => some fault)
  | .broken breach => some breach.lenient

/-- The first fault in skipped items. -/
def lenientItems : List (Tree × Pause) → Option Fault
  | [] => none
  | (tree, _) :: rest => (lenientFault tree).or (lenientItems rest)

/-- The first fault in skipped members. -/
def lenientMembers : List (Key × Tree × Nat) → Option Fault
  | [] => none
  | (_, tree, _) :: rest => (lenientFault tree).or (lenientMembers rest)

end

/-! ## Trees of values -/

mutual

/-- The tree of a value that comes from no text: nothing is wrong with it, and every offset
is zero. -/
def ofJson : Json → Tree
  | .arr items => .list 0 false (ofItems items) (.ok 0)
  | .obj members => .record 0 false (ofMembers members) (.closed 0)
  | value => .leaf 0 0 (.ok value)

/-- The trees of items. -/
def ofItems : List Json → List (Tree × Pause)
  | [] => []
  | x :: xs => (ofJson x, ⟨0, none⟩) :: ofItems xs

/-- The trees of members. -/
def ofMembers : List (String × Json) → List (Key × Tree × Nat)
  | [] => []
  | (key, value) :: rest => (⟨.ok key, 0⟩, ofJson value, 0) :: ofMembers rest

end

end Tree
end OpenApi.Json
