import NoteIndex.Disk.Resolve

/-!
# Markdown files of a folder

The files below a folder whose names end in `.md`, each with its path from there, folder by folder
in ascending order of names. Hidden names, which begin with a dot, are passed over. Links count as
what they lead to; a link that leads nowhere, or back to a folder it is in, is passed over too.
-/

namespace NoteIndex

/-- The name of a markdown file without its ending. -/
def stem? (name : String) : Option String :=
  match name.toList.reverse with
  | 'd' :: 'm' :: '.' :: c :: r => some (String.ofList (c :: r).reverse)
  | _ => none

def isHidden (name : String) : Bool := Text.beginsWith ['.'] name.toList

namespace Disk

/-- Where an entry of a folder leads, and whether it is a link. -/
def leadsTo (d : Disk) (folder : Path) (name : String) : Node → Option Path × Bool
  | .link _ =>
    match d.resolveFrom folder [name] with
    | .found p => (some p, true)
    | _ => (none, true)
  | _ => (some (folder ++ [name]), false)

/-- The markdown files below a folder, `depth` levels down at most, given the folders above it. -/
def markdownBelow (d : Disk) : Nat → List Path → Path → List (Path × File)
  | 0, _, _ => []
  | depth + 1, above, folder =>
    match Node.at? folder d.root with
    | none => []
    | some n =>
      n.entries.flatMap fun (name, entry) =>
        if isHidden name then []
        else
          match d.leadsTo folder name entry with
          | (none, _) => []
          | (some p, isLink) =>
            match Node.at? p d.root with
            | some (.file f) => if (stem? name).isSome then [([name], f)] else []
            | some (.folder _) =>
              if isLink && (folder :: above).contains p then []
              else (d.markdownBelow depth (folder :: above) p).map fun e => (name :: e.1, e.2)
            | _ => []

/-- Between two links on a way down there are fewer folders than nodes, and no folder is entered
twice by a link, so the square of the number of nodes bounds every depth. -/
def depthBound (d : Disk) : Nat := (Node.count d.root + 1) * (Node.count d.root + 1)

def markdownFiles (d : Disk) (folder : Path) : List (Path × File) :=
  d.markdownBelow d.depthBound [] folder

end Disk

end NoteIndex
