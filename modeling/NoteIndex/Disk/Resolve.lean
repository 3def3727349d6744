import NoteIndex.Disk.Basic

/-!
# Following paths

A path as text is a series of names between slashes. It is followed name by name: a dot, or no name,
stays where it is, two dots go up, a link goes on from the folder it stands in, or from the top
where its target begins with a slash. All but the last name must lead to folders. A path may meet
forty links; a circle of links is given up in this way.
-/

namespace NoteIndex

/-- Where a path leads. -/
inductive Place where
  /-- To what stands at the end of this path, which meets no link. -/
  | found (path : Path)
  /-- To a folder that has no entry of the last name. -/
  | vacant (folder : Path) (name : String)
  /-- Nowhere: a name on the way is missing. -/
  | missing
  /-- Through something that is no folder. -/
  | blocked
  /-- Through too many links. -/
  | endless
  deriving DecidableEq, Repr

/-- Why a file cannot be read. -/
inductive ReadError where
  | missing
  | folder
  | blocked
  | endless
  | notText
  | failed (reason : String)
  deriving DecidableEq, Repr

def ReadError.message : ReadError → String
  | .missing => "No such file or directory (os error 2)"
  | .folder => "Is a directory (os error 21)"
  | .blocked => "Not a directory (os error 20)"
  | .endless => "Too many levels of symbolic links (os error 40)"
  | .notText => "stream did not contain valid UTF-8"
  | .failed reason => reason

namespace Disk

def namesOf (text : String) : List String := (Text.splitOn '/' text.toList).map String.ofList

/-- Where a path starts that is met in the folder `here`. -/
def startOf (here : Path) (text : String) : Path :=
  if Text.beginsWith ['/'] text.toList then [] else here

/-- Follows names from the folder `here`; `follow` says where a path leads that goes on from a
link. -/
def walk (follow : Path → List String → Place) (root : Node) (here : Path) : List String → Place
  | [] => .found here
  | name :: rest =>
    match Node.at? here root with
    | some (.folder es) =>
      if name = "" ∨ name = "." then walk follow root here rest
      else if name = ".." then walk follow root here.dropLast rest
      else
        match SortedMap.lookup name es with
        | none => if rest.isEmpty then .vacant here name else .missing
        | some (.link target) => follow (startOf here target) (namesOf target ++ rest)
        | some _ => walk follow root (here ++ [name]) rest
    | _ => .blocked

/-- Follows names from a folder, through `links` links at most. -/
def follow (root : Node) : Nat → Path → List String → Place
  | 0 => walk (fun _ _ => .endless) root
  | links + 1 => walk (follow root links) root

def maxLinks : Nat := 40

def resolveFrom (d : Disk) (here : Path) (names : List String) : Place :=
  follow d.root maxLinks here names

/-- Where text leads as a path. Empty text leads nowhere. -/
def resolve (d : Disk) (text : String) : Place :=
  if text = "" then .missing else d.resolveFrom (startOf d.here text) (namesOf text)

/-- What a path leads to. -/
def node? (d : Disk) (text : String) : Option Node :=
  match d.resolve text with
  | .found p => Node.at? p d.root
  | _ => none

/-- Whether a folder stands at the end of a path without links. -/
def isFolder (d : Disk) (p : Path) : Bool :=
  match Node.at? p d.root with
  | some (.folder _) => true
  | _ => false

def fileAt (d : Disk) (p : Path) : Except ReadError File :=
  match Node.at? p d.root with
  | some (.file f) => .ok f
  | some (.folder _) => .error .folder
  | _ => .error .missing

def file (d : Disk) (text : String) : Except ReadError File :=
  match d.resolve text with
  | .found p => d.fileAt p
  | .vacant _ _ => .error .missing
  | .missing => .error .missing
  | .blocked => .error .blocked
  | .endless => .error .endless

def bytes (d : Disk) (text : String) : Except ReadError (List UInt8) :=
  match d.file text with
  | .error e => .error e
  | .ok f => f.contents.mapError .failed

end Disk

end NoteIndex
