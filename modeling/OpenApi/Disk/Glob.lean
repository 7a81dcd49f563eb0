-- SUMMARY: Path patterns: what they match, and the paths on a disk that match them.
import OpenApi.Disk

/-!
# Path patterns

A path pattern is matched step by step, from one slash to the next. In a step `?`
stands for any character, `*` for any text, and a list in brackets for one of its
characters or, behind `!`, for any other. The step `**` stands for folders inside
each other, as many as there are. A step without any of these is looked up and
not matched. The paths come in the order of their names.
-/

namespace OpenApi

namespace Glob

/-! ## Steps -/

/-- Characters from one to another. -/
structure Span where
  first : Char
  last : Char
deriving DecidableEq, Repr

/-- A part of a step of a pattern. -/
inductive Token where
  | char (c : Char)
  | anyChar
  | anyText
  | anyFolders
  /-- A character within one of the spans, or in none of them. -/
  | oneOf (negated : Bool) (spans : List Span)
deriving DecidableEq, Repr

/-- Why a pattern is none. -/
inductive Defect where
  | wildcards | recursion | range
deriving DecidableEq, Repr

/-- A defect and the number of characters in front of it. -/
structure Fault where
  place : Nat
  defect : Defect
deriving DecidableEq, Repr

/-- The message for a defect. -/
def Defect.message : Defect → String
  | .wildcards => "wildcards are either regular `*` or recursive `**`"
  | .recursion => "recursive wildcards must form a single path component"
  | .range => "invalid range pattern"

/-- The message for a fault. -/
def Fault.message (fault : Fault) : String :=
  "Pattern syntax error near position " ++ toString fault.place ++ ": " ++ fault.defect.message

/-- Whether a text has characters with a meaning in patterns. A brace has none, and yet counts. -/
def isPattern (text : String) : Bool :=
  text.toList.any fun c => c = '*' || c = '?' || c = '[' || c = '\x7b'

/-! ## Reading -/

/-- The spans of a list in brackets. -/
def spansOf : List Char → List Span
  | first :: '-' :: last :: rest => ⟨first, last⟩ :: spansOf rest
  | c :: rest => ⟨c, c⟩ :: spansOf rest
  | [] => []

/-- Read a list behind its opening bracket: at least one character, and the first closing bracket
behind that. -/
def readList (text : List Char) : Option (Token × List Char) :=
  let negated := text.head? = some '!'
  match if negated then text.tail else text with
  | [] => none
  | first :: rest =>
    match rest.dropWhile (· ≠ ']') with
    | _ :: behind =>
      some (.oneOf negated (spansOf (first :: rest.takeWhile (· ≠ ']'))), behind)
    | [] => none

theorem length_lt_of_readList {text behind : List Char} {token : Token}
    (h : readList text = some (token, behind)) : behind.length < text.length := by
  simp only [readList] at h
  split at h
  · simp at h
  · next first rest hrest =>
    split at h
    · next c found hfound =>
      obtain ⟨-, rfl⟩ := Prod.mk.inj (Option.some.inj h)
      have hshorter := (List.dropWhile_suffix (· ≠ ']') (l := rest)).length_le
      rw [hfound] at hshorter
      have htail : (first :: rest).length ≤ text.length := by
        rw [← hrest]
        split <;> simp
      simp only [List.length_cons] at hshorter htail
      omega
    · simp at h

/-- Read tokens. `place` counts the characters in front of them, and `before` is the last of
those. -/
def readTokens (place : Nat) (before : Option Char) (text : List Char) :
    Except Fault (List Token) :=
  match text with
  | [] => .ok []
  | '?' :: rest => (readTokens (place + 1) (some '?') rest).map (.anyChar :: ·)
  | '*' :: '*' :: '*' :: _ => .error ⟨place + 2, .wildcards⟩
  | '*' :: '*' :: rest =>
    if before.all (· = '/') then
      match rest with
      | [] => .ok [.anyFolders]
      | '/' :: rest => (readTokens (place + 3) (some '/') rest).map (.anyFolders :: ·)
      | _ :: _ => .error ⟨place + 2, .recursion⟩
    else .error ⟨place - 1, .recursion⟩
  | '*' :: rest => (readTokens (place + 1) (some '*') rest).map (.anyText :: ·)
  | '[' :: rest =>
    match h : readList rest with
    | some (token, behind) =>
      have := length_lt_of_readList h
      let read := 1 + (rest.length - behind.length)
      (readTokens (place + read) (some ']') behind).map (token :: ·)
    | none => .error ⟨place, .range⟩
  | c :: rest => (readTokens (place + 1) (some c) rest).map (.char c :: ·)
termination_by text.length

/-- A pattern: where it starts, its steps, and whether it asks for folders. -/
structure Pattern where
  start : String
  steps : List (List Token)
  foldersOnly : Bool

/-- Split a text at slashes; a slash at its end starts no further step. -/
def splitSteps (text : List Char) : List (List Char) :=
  let steps := text.splitOn '/'
  if steps.getLast? = some [] then steps.dropLast else steps

/-- Read a pattern. It has to be one as a whole, and so does each step. -/
def Pattern.read (text : String) : Except Fault Pattern := do
  let chars := text.toList
  let _ ← readTokens 0 none chars
  let absolute := chars.head? = some '/'
  let steps ← (splitSteps (if absolute then chars.tail else chars)).mapM (readTokens 0 none)
  return {
    start := if absolute then "/" else "."
    steps := if absolute && chars.tail.isEmpty then [[]] else steps
    foldersOnly := chars.getLast? = some '/' }

/-! ## Matching -/

/-- Whether a token stands for a character. -/
def Token.takes (c : Char) : Token → Bool
  | .char d => c == d
  | .anyChar => true
  | .oneOf negated spans => negated != spans.any fun span => span.first ≤ c && c ≤ span.last
  | .anyText | .anyFolders => false

mutual

/-- Whether tokens stand for a text. -/
def accepts : List Token → List Char → Bool
  | [], text => text.isEmpty
  | .anyText :: rest, text => acceptsBehind rest text
  | .anyFolders :: rest, text => acceptsBehind rest text
  | _ :: _, [] => false
  | token :: rest, c :: text => token.takes c && accepts rest text
termination_by tokens text => (tokens.length, text.length + 1)

/-- Whether tokens stand for what is left behind some part of a text. -/
def acceptsBehind (rest : List Token) : List Char → Bool
  | [] => accepts rest []
  | c :: text => accepts rest (c :: text) || acceptsBehind rest text
termination_by text => (rest.length, text.length + 2)

end

/-- The character that a token is. -/
def Token.char? : Token → Option Char
  | .char c => some c
  | _ => none

/-- The text that tokens spell out, if each is a character. -/
def spelled? (tokens : List Token) : Option String :=
  (tokens.mapM Token.char?).map String.ofList

/-! ## Walking -/

variable {m : Type → Type} [Monad m] (disk : Disk m)

/-- Whether a path is a folder. -/
def isFolder (path : String) : m Bool := return (← disk.find path) == some .folder

/-- Whether a path means the working folder by dots alone. -/
def isHere (path : String) : Bool :=
  let steps := Disk.segments path
  steps.head? == some "." && steps.all fun step => step == "." || step == ""

/-- The path of a name inside a folder; inside the working folder it is the name. -/
def inFolder (folder name : String) : String :=
  if isHere folder then name else Disk.join folder name

/-- Keep a path if it is what a pattern asks for. -/
def keep (foldersOnly : Bool) (path : String) : m (List String) := do
  if foldersOnly then return if ← isFolder disk path then [path] else []
  else return [path]

/-- Apply an action to items in turn and put its lists together. -/
def collect {α : Type} (action : α → m (List String)) : List α → m (List String)
  | [] => return []
  | item :: rest => do
    let found ← action item
    return found ++ (← collect action rest)

/-- The paths inside a folder that the steps of a pattern match. No path has more than `depth`
steps. -/
def walk (foldersOnly : Bool) : Nat → String → List (List Token) → m (List String)
  | 0, _, _ | _, _, [] => return []
  | depth + 1, folder, step :: rest => do
    let goOn (path : String) (rest : List (List Token)) : m (List String) :=
      if rest.isEmpty then keep disk foldersOnly path else walk foldersOnly depth path rest
    match spelled? step with
    | some name =>
      let path := inFolder folder name
      let dots := name == "." || name == ".."
      let there ← if dots then isFolder disk folder else pure (← disk.find path).isSome
      if there then goOn path rest else return []
    | none =>
      if !(← isFolder disk folder) then return []
      let dots := if step.head? = some (.char '.') then ["..", "."] else []
      let special ← collect (fun name => goOn (Disk.join folder name) rest)
        (dots.filter fun name => accepts step name.toList)
      let names := (← disk.names folder).mergeSort fun a b => decide (a ≤ b)
      let found ← collect (fun name => do
        let path := inFolder folder name
        if step == [.anyFolders] then
          let rest := rest.dropWhile (· == [.anyFolders])
          let inner ← isFolder disk path
          let own ← match rest with
            | [] => pure (if inner then [path] else [])
            | next :: rest => if accepts next name.toList then goOn path rest else pure []
          let below ← if inner then walk foldersOnly depth path (step :: rest) else pure []
          return own ++ below
        else if accepts step name.toList then goOn path rest
        else return []) names
      return special ++ found

/-- A number that no path has as many steps as. -/
def maxDepth : Nat := 4096

/-- The paths on a disk that a pattern matches. -/
def paths (pattern : Pattern) : m (List String) :=
  walk disk pattern.foldersOnly (maxDepth + pattern.steps.length) pattern.start pattern.steps

end Glob
end OpenApi
