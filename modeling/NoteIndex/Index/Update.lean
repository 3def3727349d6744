import NoteIndex.Index.Basic

/-!
# Changing an index

A note is entered, or entered again in another form, or taken out. What it gave to the maps before
goes first. Links to a note depend on its title alone, so a note that keeps its title keeps them;
one that changes it loses those to the old title and gains those to the new one.
-/

namespace NoteIndex.Index

/-- Forgets what a note links to. -/
def detachOutbound (x : Index) (id : String) : Index :=
  let targets := (x.outbound.ids id).toList
  { x with
    outbound := SortedMap.erase x.outbound id
    backlinks := x.backlinks.removeUnder targets id }

/-- Forgets what links to a note. -/
def detachIncoming (x : Index) (id : String) : Index :=
  let sources := (x.backlinks.ids id).toList
  { x with
    backlinks := SortedMap.erase x.backlinks id
    outbound := x.outbound.removeUnder sources id }

/-- Takes a record's tags and link keys out of the maps. -/
def withdraw (x : Index) (r : Record) : Index :=
  { x with
    tags := x.tags.removeUnder r.tags.toList r.id
    links := x.links.removeUnder r.linkKeys.toList r.id }

/-- Takes out what the record a note had before gave to the maps, if it had one. -/
def forget (x : Index) : Option Record → Index
  | some r => x.withdraw r
  | none => x

/-- Puts a record's tags and link keys into the maps. -/
def contribute (x : Index) (r : Record) : Index :=
  { x with
    tags := x.tags.addUnder r.tags.toList r.id
    links := x.links.addUnder r.linkKeys.toList r.id }

/-- Notes that `source` links to `target`. -/
def connect (x : Index) (source target : String) : Index :=
  { x with
    backlinks := x.backlinks.addId target source
    outbound := x.outbound.addId source target }

/-- Gives a note its title in place of the one it had, and forgets the links to that. -/
def retitle (x : Index) (id : String) (old : Option String) (new : String) : Index :=
  let x := x.detachIncoming id
  let titles := match old with
    | some key => x.titles.removeId key id
    | none => x.titles
  { x with titles := titles.addId new id }

/-- Links a note to those its keys resolve to. -/
def connectOut (x : Index) (id : String) (keys : List String) : Index :=
  keys.foldl
    (fun x key => (x.titles.ids key).toList.foldl (fun x target => x.connect id target) x) x

/-- Links to a note those that have a link to its title. -/
def connectIn (x : Index) (id key : String) : Index :=
  ((x.links.ids key).toList).foldl (fun x source => x.connect source id) x

/-- Enters a note's record in place of the one it had. -/
def enter (x : Index) (r : Record) (fingerprint : String) : Index :=
  let old := x.records.find? r.id
  let oldTitle := old.map Record.titleKey
  let x := ((x.forget old).contribute r).detachOutbound r.id
  let renamed := oldTitle ≠ some r.titleKey
  let x := if renamed then x.retitle r.id oldTitle r.titleKey else x
  let x := x.connectOut r.id r.linkKeys.toList
  let x := if renamed then x.connectIn r.id r.titleKey else x
  { x with
    fingerprints := x.fingerprints.insert r.id fingerprint
    records := x.records.add r }

def enterNote (x : Index) (n : Note) : Index := x.enter (.ofNote n) n.fingerprint

/-- Takes out a note and everything that involves it. -/
def leave (x : Index) (id : String) : Index :=
  match x.records.find? id with
  | none => x
  | some r =>
    let x := ((x.withdraw r).detachOutbound id).detachIncoming id
    { x with
      titles := x.titles.removeId r.titleKey id
      fingerprints := x.fingerprints.erase id
      records := x.records.erase id }

/-- The index of notes entered one after another. -/
def ofNotes (ns : List Note) : Index := ns.foldl enterNote ∅

end NoteIndex.Index
