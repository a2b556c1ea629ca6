import StubDecl.Cache.Store
import StubDecl.File.Path
import StubDecl.File.Scope
import StubDecl.Run.Basic

/-!
# A disk

A tree of files, symbolic links and cache stores with a working directory. A path is followed name by
name; a link on the way stands for the path it holds.
-/

namespace StubDecl

/-- What is not a directory: a file with its content, a link to a path, or a cache store. -/
inductive Leaf where
  | file (content : Text)
  | link (target : Text)
  | store (s : BlockStore)
  deriving DecidableEq, Repr

/-- A tree of files and the directory that relative paths start from. -/
structure Disk where
  root : FileTree Leaf := .nil
  directory : Text := "/"
  deriving DecidableEq, Repr

namespace Disk

open FileTree (Entry)

/-! ## Following paths -/

/-- How many links are followed for one path. -/
def maxLinks : Nat := 40

/-- The names on a path. A slash at the end asks for a directory, which a dot does too. -/
def steps (p : Text) : List Text :=
  let names := (p.splitOn 0x2f).filter fun c => !c.isEmpty
  if p.getLast? = some 0x2f then names ++ [Text.ofString "."] else names

/-- Follows names from the directory `here`, given with its innermost name first. The result is the
place without links, whose last name need not exist. A link at the very end is followed only if
`last`. -/
def follow (t : FileTree Leaf) (last : Bool) :
    Nat → Nat → List Text → List Text → Except PathFault (List Text)
  | 0, _, _, _ => .error .tooManyLinks
  | _ + 1, _, here, [] => .ok here
  | fuel + 1, links, here, n :: ns =>
    if n = "." then follow t last fuel links here ns
    else if n = ".." then follow t last fuel links (here.drop 1) ns
    else match t.getAt? (here.reverse ++ [n]) with
      | none => if ns.isEmpty then .ok (n :: here) else .error .missing
      | some (.dir _) => follow t last fuel links (n :: here) ns
      | some (.leaf (.link target)) =>
        if ns.isEmpty && !last then .ok (n :: here)
        else match links with
          | 0 => .error .tooManyLinks
          | links + 1 =>
            let start := if Path.isAbsolute target then [] else here
            follow t last fuel links start (steps target ++ ns)
      | some (.leaf _) => if ns.isEmpty then .ok (n :: here) else .error .notDirectory

/-- The number of names and the size of link targets in a tree, which bounds the way of a path. -/
def linkWeight : FileTree Leaf → Nat
  | .nil => 0
  | .leaf _ (.link target) rest => target.length + 2 + linkWeight rest
  | .leaf _ _ rest => linkWeight rest
  | .dir _ es rest => linkWeight es + linkWeight rest

/-- The place that a path means. -/
def place (d : Disk) (last : Bool) (p : Text) : Except PathFault (List Text) :=
  let ns := if Path.isAbsolute p then steps p else steps d.directory ++ steps p
  let fuel := ns.length + 2 + (maxLinks + 1) * linkWeight d.root
  if p.isEmpty then .error .missing
  else (follow d.root last fuel maxLinks [] ns).map List.reverse

/-- What is at a path, links being followed. -/
def stat (d : Disk) (p : Text) : Except PathFault (Entry Leaf) := do
  match d.root.getAt? (← d.place true p) with
  | some e => .ok e
  | none => .error .missing

/-- What is at a path, a link at the end not being followed. -/
def lstat (d : Disk) (p : Text) : Except PathFault (Entry Leaf) := do
  match d.root.getAt? (← d.place false p) with
  | some e => .ok e
  | none => .error .missing

/-- Whether there is something at a path. -/
def hasPath (d : Disk) (p : Text) : Bool := (d.stat p).toOption.isSome

/-- A refused operation on a path. -/
def refused {α : Type} (operation p : Text) (fault : PathFault) : Outcome α :=
  .error (Cause.path ⟨operation, p, fault⟩)

/-! ## Files -/

/-- The content of a file. -/
def contentOf (d : Disk) (p : Text) : Outcome Text :=
  match d.stat p with
  | .error f => refused "open" p f
  | .ok (.dir _) => refused "read" p .isDirectory
  | .ok (.leaf (.file c)) => .ok c
  | .ok (.leaf _) => .ok []

/-- The place of a file that is to be written, which need not exist but must not be a directory. -/
def placeForWriting (d : Disk) (p : Text) : Outcome (List Text) :=
  match d.place true p with
  | .error f => refused "open" p f
  | .ok at_ =>
    match d.root.getAt? at_ with
    | some (.dir _) => refused "open" p .isDirectory
    | _ => .ok at_

/-- The disk with a leaf at a place. -/
def withLeaf (d : Disk) (at_ : List Text) (l : Leaf) : Disk :=
  { d with root := d.root.setAt at_ (.leaf l) }

/-- The disk with a file of the given content. -/
def putFile (d : Disk) (p content : Text) : Outcome Disk := do
  return d.withLeaf (← d.placeForWriting p) (.file content)

/-- Makes one directory. -/
def makeDir (d : Disk) (p : Text) : Outcome Disk :=
  match d.place false p with
  | .error f => refused "mkdir" p f
  | .ok at_ =>
    match d.root.getAt? at_ with
    | some _ => refused "mkdir" p .alreadyExists
    | none => .ok { d with root := d.root.setAt at_ (.dir .nil) }

/-- The path in front of the last component, as it is written; empty if there is none. -/
def upper (p : Text) : Text :=
  let r := p.reverse.dropWhile (· = 0x2f)
  ((r.dropWhile (· ≠ 0x2f)).dropWhile (· = 0x2f)).reverse

/-- Makes a directory and the directories it lies in. -/
def makeDirsFrom (d : Disk) : Nat → Text → Outcome Disk
  | 0, _ => .ok d
  | fuel + 1, p =>
    match d.stat p with
    | .ok (.dir _) => .ok d
    | .ok (.leaf _) => refused "mkdir" p .notDirectory
    | .error _ => do
      let u := upper p
      let d ← if u.isEmpty then .ok d else makeDirsFrom d fuel u
      d.makeDir p

@[inherit_doc makeDirsFrom]
def makeDirs (d : Disk) (p : Text) : Outcome Disk := d.makeDirsFrom (p.length + 1) p

/-! ## Changes from outside -/

/-- A change that somebody makes to files. Paths start in the working directory. -/
inductive Change where
  | write (path content : Text)
  | remove (path : Text)
  | makeDir (path : Text)
  | rename (source target : Text)
  | link (target path : Text)
  deriving DecidableEq, Repr

/-- The absolute path that a path means in the working directory. -/
def absolute (d : Disk) (p : Text) : Text := Path.absolute d.directory p

/-- The place of a path that is changed itself, not what it links to. -/
def ownPlace (d : Disk) (p : Text) : List Text := ((d.place false p).toOption).getD []

/-- Whether an entry can come to where another is: a directory takes the place of an empty directory
only, anything else that of anything but a directory. -/
def replaces : Entry Leaf → Option (Entry Leaf) → Bool
  | _, none => true
  | .dir _, some (.dir es) => es = .nil
  | .leaf _, some (.leaf _) => true
  | _, _ => false

/-- The entry that renaming a path moves, its place and its new place. Nothing moves into itself or
onto what it cannot replace. -/
def moveOf? (d : Disk) (p q : Text) : Option (Entry Leaf × List Text × List Text) :=
  match d.lstat (d.absolute p), d.place false (d.absolute q) with
  | .ok e, .ok target =>
    let source := d.ownPlace (d.absolute p)
    if source.isPrefixOf target || !replaces e (d.root.getAt? target) then none
    else some (e, source, target)
  | _, _ => none

/-- The disk after a change. A written file gets the directories it lies in; what cannot be done is
not done. -/
def apply (d : Disk) : Change → Disk
  | .write p c =>
    let made := (d.makeDirs (Path.parent (d.absolute p))).toOption.getD d
    ((made.putFile (d.absolute p) c).toOption).getD made
  | .remove p => { d with root := d.root.eraseAt (d.ownPlace (d.absolute p)) }
  | .makeDir p => ((d.makeDirs (d.absolute p)).toOption).getD d
  | .rename p q =>
    match d.moveOf? p q with
    | some (e, source, target) => { d with root := (d.root.eraseAt source).setAt target e }
    | none => d
  | .link target p => d.withLeaf (d.ownPlace (d.absolute p)) (.link target)

/-! ## Files to convert -/

/-- A path below a directory whose path is clean. -/
def under (dir rel : Text) : Text := if dir = "/" then dir ++ rel else dir ++ "/" ++ rel

/-- The files below a directory that a scope selects, in path order. A file in place of the directory
has the relative path `.`. -/
def sources (d : Disk) (scope : Scope) (dir : Text) : Outcome (List SourceFile) :=
  let dir := Path.absolute d.directory dir
  match d.lstat dir with
  | .error f => refused "lstat" dir f
  | .ok (.leaf _) => .ok (if scope.selects "." then [⟨dir, "."⟩] else [])
  | .ok (.dir t) => .ok ((scope.select [] t).map fun (rel, _) => ⟨under dir rel, rel⟩)

end Disk

end StubDecl
