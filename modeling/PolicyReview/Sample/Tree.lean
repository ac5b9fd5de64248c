import PolicyReview.Sample.Cases

/-!
# The tree of samples

The sample cases are directories of a tree, and a path is walked through it step by step.  A place
in the tree remembers the directories around it, so that a path may also lead out of a directory
and into it again.
-/

namespace PolicyReview
namespace Sample

/-- What stands in the tree: a file with its document, or a directory of named entries. -/
inductive Entry where
  | file (document : Json.Document)
  | directory (entries : List (String × Entry))

/-- The directory of a case. -/
def Entry.ofCase (files : List (String × Json.Document)) : Entry :=
  .directory (files.map fun (name, document) => (name, .file document))

/-- The tree: the cases stand together, two directories below the top. -/
def tree : Entry :=
  .directory [("tests", .directory [
    ("fixtures", .directory (cases.map fun (name, files) => (name, .ofCase files)))])]

/-- An entry and the directories around it, the nearest first. -/
structure Place where
  entry : Entry
  around : List Entry

/-- The value under a name. -/
def named? {α : Type} (name : String) : List (String × α) → Option α
  | [] => none
  | (other, value) :: rest => if name = other then some value else named? name rest

namespace Place

/-- The top of the tree. -/
def top : Place := ⟨tree, []⟩

/-- Go to the directory around a place; nothing is known around the top. -/
def leave? : Place → Option Place
  | ⟨_, []⟩ => none
  | ⟨_, directory :: around⟩ => some ⟨directory, around⟩

/-- Go one step of a path.  A file has no steps, not even the one that stays. -/
def step? (place : Place) (name : String) : Option Place :=
  match place.entry with
  | .file _ => none
  | .directory entries =>
    if name = "" ∨ name = "." then some place
    else if name = ".." then place.leave?
    else (named? name entries).map fun entry => ⟨entry, place.entry :: place.around⟩

/-- Go the steps of a path. -/
def walk? (place : Place) : List String → Option Place
  | [] => some place
  | name :: names => (place.step? name).bind fun next => next.walk? names

end Place

/-- The names of a path between its slashes. -/
def splitPath : List Char → List (List Char)
  | [] => [[]]
  | c :: rest =>
    if c = '/' then [] :: splitPath rest
    else
      match splitPath rest with
      | [] => [[c]]
      | name :: names => (c :: name) :: names

/-- The document that a path leads to.  A path starts where the cases stand, and one that starts
with a slash leads out of the tree. -/
def documentAt? (path : String) : Option Json.Document :=
  match splitPath path.toList with
  | [] :: _ :: _ => none
  | names =>
    match Place.top.walk? ("tests" :: "fixtures" :: names.map String.ofList) with
    | some ⟨.file document, _⟩ => some document
    | _ => none

end Sample
end PolicyReview
