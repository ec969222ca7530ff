import Passwise.Error
import Passwise.Text.Wildcard

set_option autoImplicit false

namespace Passwise

def pathParts (path : String) : List String :=
  ((path.toList.splitOn '/').map String.ofList).filter fun part => !part.isEmpty && part != "."

def normalizePath (path : String) : String :=
  let joined := "/".intercalate (pathParts path)
  if path.startsWith "//" && !path.startsWith "///" then "//" ++ joined
  else if path.startsWith "/" then "/" ++ joined
  else if joined.isEmpty then "." else joined

structure Place where
  up : Nat
  below : List String
  deriving DecidableEq, Repr

namespace Place

def working : Place := ⟨0, []⟩

def parent (p : Place) : Place :=
  if p.below.isEmpty then ⟨p.up + 1, []⟩ else ⟨p.up, p.below.dropLast⟩

def child (p : Place) (name : String) : Place := ⟨p.up, p.below ++ [name]⟩

def step (p : Place) (part : String) : Place := if part = ".." then p.parent else p.child part

end Place

abbrev Files := List (String × String)

namespace Files

def namesOf? (path : String) : Option (List String) :=
  let place := (pathParts path).foldl Place.step .working
  if path.startsWith "/" || place.up != 0 then none else some place.below

def located (files : Files) : List (List String × String) :=
  files.filterMap fun (path, text) => (namesOf? path).map fun names => (names, text)

def content? (files : Files) (p : Place) : Option String :=
  if p.up = 0 then files.located.reverse.lookup p.below else none

def namesIn (files : Files) (p : Place) : List String :=
  if p.up = 0 then
    (files.located.filterMap fun (names, _) =>
      if p.below.isPrefixOf names then names[p.below.length]? else none).eraseDups
  else []

def isFolder (files : Files) (p : Place) : Bool :=
  p.below.isEmpty || !(files.namesIn p).isEmpty

def holds (files : Files) (p : Place) : Bool := files.isFolder p || (files.content? p).isSome

def place? (files : Files) (path : String) : Option Place := do
  let parts := pathParts path
  if path.startsWith "/" then
    if parts.isEmpty then return ⟨1, []⟩ else none
  else
    let enter (p : Place) (part : String) : Option Place :=
      if files.isFolder p then some (p.step part) else none
    let p ← parts.foldlM enter .working
    if files.holds p then return p else none

def fronts (names : List String) : List (List String) :=
  (List.range (names.length + 1)).map names.take

def foldersFrom (files : Files) (p : Place) : List (List String) :=
  if p.up = 0 then
    ([] :: files.located.flatMap fun (names, _) =>
      if p.below.isPrefixOf names then fronts (names.drop p.below.length).dropLast else []).eraseDups
  else [[]]

def select (files : Files) : List String → Place → List (List String × Place)
  | [], p => [([], p)]
  | part :: rest, p =>
    let proceed (taken : List String) (p : Place) : List (List String × Place) :=
      (select files rest p).map fun (more, hit) => (taken ++ more, hit)
    if part = "**" then
      (files.foldersFrom p).flatMap fun names => proceed names (names.foldl Place.child p)
    else if part = ".." then if files.isFolder p then proceed [part] p.parent else []
    else
      (files.namesIn p).flatMap fun name =>
        let next := p.child name
        if Text.matchesPattern part name && (rest.isEmpty || files.isFolder next) then
          proceed [name] next
        else []

def hasTwoStars : List Char → Bool
  | '*' :: '*' :: _ => true
  | _ :: rest => hasTwoStars rest
  | [] => false

def patternParts (pattern : String) : Except Error (List String) :=
  let parts := pathParts pattern
  if pattern.startsWith "/" then .error .rootedPattern
  else if parts.any fun part => part != "**" && hasTwoStars part.toList then
    .error .badValue
  else .ok parts

def read (files : Files) (p : Place) : Except Error String :=
  match files.content? p with
  | some text => .ok text
  | none => .error .isFolder

def requireFolder (files : Files) (path : String) : Except Error Unit :=
  match namesOf? path with
  | none => .ok ()
  | some names =>
    let file (names : List String) : Bool := (files.content? ⟨0, names⟩).isSome
    if file names then .error .fileExists
    else if (fronts names).any file then .error .noFolderBelowFile
    else .ok ()

end Files

end Passwise
