import NoteIndex.Disk.Resolve

/-!
# Changing a disk

Writing to a path makes the folders on the way to it. A file is written through links, so that a
link to a file stays a link, and one that is there already was made when it was made; a folder or
link is only made where there is nothing yet; what is deleted is the entry itself, a folder with all
that is in it. A change that is not possible is refused.
-/

namespace NoteIndex.Disk

/-- Goes into a folder, which is made if there is no entry of its name. -/
def enter? (d : Disk) (here : Path) (name : String) : Option (Disk × Path) :=
  match d.resolveFrom here [name] with
  | .found p => if d.isFolder p then some (d, p) else none
  | .vacant folder last =>
    if folder = here ∧ last = name then some (d.put (here ++ [name]) (.folder []), here ++ [name])
    else none
  | _ => none

/-- Goes into one folder after another. -/
def enterAll? (d : Disk) (here : Path) : List String → Option (Disk × Path)
  | [] => some (d, here)
  | name :: r => (d.enter? here name).bind fun (d, p) => enterAll? d p r

def addFolder? (d : Disk) (text : String) : Option Disk :=
  (d.enterAll? (startOf d.here text) (namesOf text)).map Prod.fst

/-- The folder that a path's last name belongs in, made if need be, and that name. -/
def approach? (d : Disk) (text : String) : Option (Disk × Path × String) :=
  match (namesOf text).getLast? with
  | none => none
  | some name =>
    if name = "" then none
    else (d.enterAll? (startOf d.here text) (namesOf text).dropLast).map fun (d, p) => (d, p, name)

def write? (d : Disk) (text : String) (f : File) : Option Disk := do
  let (d, here, name) ← d.approach? text
  match d.resolveFrom here [name] with
  | .found p =>
    match d.fileAt p with
    | .ok old => some (d.put p (.file { f with created := old.created }))
    | .error _ => none
  | .vacant folder last => some (d.put (folder ++ [last]) (.file f))
  | _ => none

def addLink? (d : Disk) (text target : String) : Option Disk := do
  let (d, here, name) ← d.approach? text
  match Node.at? (here ++ [name]) d.root with
  | none => some (d.put (here ++ [name]) (.link target))
  | some _ => none

def delete? (d : Disk) (text : String) : Option Disk := do
  let name ← (namesOf text).getLast?
  match d.resolveFrom (startOf d.here text) (namesOf text).dropLast with
  | .found here => some (d.alter (fun _ => none) (here ++ [name]))
  | _ => none

end NoteIndex.Disk
