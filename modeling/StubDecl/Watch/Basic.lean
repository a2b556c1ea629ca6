import StubDecl.File.Disk

/-!
# Watching a tree of files

A watcher has a set of directories under watch and reports which selected paths a change concerns.
It learns only of entries that appear in or vanish from a watched directory:

* `Watcher.start`: the root and the directories below it that the scope enters;
* `Watcher.appear`: a new directory is put under watch with all that the scope enters below it, and
  the selected files in it are reported; a new or written file is reported if it is selected;
* `Watcher.vanish`: what was in a watched directory is reported;
* `Watcher.move`: the old name is reported, not what lies below it, and the new one appears.

A directory that moves together with a directory above it stays under watch, but what happens in it
is reported below the path it was put under watch with.
-/

namespace StubDecl

/-- A directory under watch: where it is, the path that its entries are reported below (empty for the
root), and whether a move has made that path out of date. -/
structure Watch where
  place : List Text
  name : Text
  moved : Bool := false
  deriving DecidableEq, Repr

/-- The paths that matter, and the directories under watch. -/
structure Watcher where
  scope : Scope
  watches : List Watch

namespace Watch

/-- The path that an entry of the directory is reported with. -/
def entry (x : Watch) (n : Text) : Text := if x.name.isEmpty then n else x.name ++ "/" ++ n

/-- The path that the directory itself is reported with. -/
def own (x : Watch) : Text := if x.name.isEmpty then "." else x.name

/-- The directories that a scope enters, below the directory at a place. `base` is the path of that
directory with a slash behind it, or empty. -/
def below {α : Type} (s : Scope) (place : List Text) (base : Text) : FileTree α → List Watch
  | .nil => []
  | .leaf _ _ rest => below s place base rest
  | .dir n es rest =>
    if s.enters (base ++ n) then
      { place := place ++ [n], name := base ++ n } ::
        (below s (place ++ [n]) (base ++ n ++ "/") es ++ below s place base rest)
    else below s place base rest

end Watch

namespace Watcher

variable {α : Type}

/-- Watches a directory of a tree. Only the directory itself is watched whatever the scope says. -/
def start (s : Scope) (t : FileTree α) (root : List Text) : Watcher where
  scope := s
  watches :=
    match t.getAt? root with
    | some (.dir es) => { place := root, name := [] } :: Watch.below s root [] es
    | _ => []

/-- The selected ones of some paths. -/
def selected (w : Watcher) (paths : List Text) : List Text := paths.filter w.scope.selects

/-- The watch on the directory at a place. -/
def at? (w : Watcher) (place : List Text) : Option Watch := w.watches.find? fun x => x.place = place

/-- The watch on the directory that a place lies in, and the last name of the place. -/
def holder? (w : Watcher) (place : List Text) : Option (Watch × Text) :=
  match place.getLast?, w.at? place.dropLast with
  | some n, some x => some (x, n)
  | _, _ => none

/-- The watcher with one more watch. A directory under watch keeps its watch, and a path is that of
one directory only. -/
def add (w : Watcher) (x : Watch) : Watcher :=
  let others := w.watches.filter fun y => y.name ≠ x.name || y.place = x.place
  { w with watches := if others.any (fun y => y.place = x.place) then others else others ++ [x] }

/-- Something is new or written at a place of the tree `t`. -/
def appear (w : Watcher) (t : FileTree α) (place : List Text) : Watcher × List Text :=
  match w.holder? place with
  | none => (w, [])
  | some (x, n) =>
    let name := x.entry n
    match if x.moved then none else t.getAt? place with
    | some (.dir es) =>
      if w.scope.enters name then
        (({ place := place, name := name } :: Watch.below w.scope place (name ++ "/") es).foldl add w,
          (w.scope.select (name ++ "/") es).map (·.1))
      else (w, [])
    | _ => (w, w.selected [name])

/-- The paths of what lies in the directory of a watch. -/
def contents (t : FileTree α) (x : Watch) : List Text :=
  match t.getAt? x.place with
  | some (.dir es) => es.names.map x.entry
  | _ => []

/-- What was at a place of the tree `t` is removed with all that is in it. -/
def vanish (w : Watcher) (t : FileTree α) (place : List Text) : Watcher × List Text :=
  let gone := w.watches.filter fun x => place.isPrefixOf x.place
  let named := (w.holder? place).toList.map fun (x, n) => x.entry n
  ({ w with watches := w.watches.filter fun x => !place.isPrefixOf x.place },
    w.selected (named ++ gone.flatMap fun x => x.own :: contents t x))

/-- The watch after a directory has moved: none for the directory itself and for what it replaces. -/
def follow (source target : List Text) (x : Watch) : Option Watch :=
  if target.isPrefixOf x.place || x.place = source then none
  else if source.isPrefixOf x.place then
    some { x with place := target ++ x.place.drop source.length, moved := true }
  else some x

/-- What was at `source` is at `target` in the tree `t`. -/
def move (w : Watcher) (t : FileTree α) (source target : List Text) : Watcher × List Text :=
  let named := (w.holder? source).toList.map fun (x, n) => x.entry n
  let itself := (w.at? source).toList.map Watch.own
  let (v, new) := ({ w with watches := w.watches.filterMap (follow source target) }).appear t target
  (v, w.selected (named ++ itself) ++ new)

/-- The first place on the way to a place at which the tree has nothing. -/
def firstMissing? (t : FileTree α) (place : List Text) : Option (List Text) :=
  ((List.range place.length).map fun n => place.take (n + 1)).find? fun p => (t.getAt? p).isNone

/-- A file was written at a place, with the directories on the way to it. -/
def written (w : Watcher) (before after : FileTree α) (place : List Text) : Watcher × List Text :=
  w.appear after ((firstMissing? before place).getD place)

/-- A change is made to a disk: the watcher afterwards and what it reports. -/
def notice (w : Watcher) (d : Disk) (c : Disk.Change) : Watcher × List Text :=
  let after := d.apply c
  match c with
  | .write p _ =>
    match after.place true (d.absolute p) with
    | .ok at_ => w.written d.root after.root at_
    | .error _ => (w, [])
  | .makeDir p =>
    match (after.place true (d.absolute p)).toOption.bind (firstMissing? d.root) with
    | some at_ => w.appear after.root at_
    | none => (w, [])
  | .remove p =>
    match d.lstat (d.absolute p) with
    | .ok _ => w.vanish d.root (d.ownPlace (d.absolute p))
    | .error _ => (w, [])
  | .rename p q =>
    match d.moveOf? p q with
    | some (_, source, target) => w.move after.root source target
    | none => (w, [])
  | .link _ p => w.appear after.root (d.ownPlace (d.absolute p))

/-- The distinct paths that a change is reported with, in bytewise order. -/
def changed (w : Watcher) (d : Disk) (c : Disk.Change) : Watcher × List Text :=
  let (v, paths) := w.notice d c
  (v, Text.sort paths.eraseDups)

end Watcher

end StubDecl
