import StubDecl.Text.Basic

/-!
# Trees of files

The entries of a directory, in bytewise order of their names. What a leaf holds is left open.

* `FileTree.get?`, `FileTree.set`, `FileTree.erase`: one directory as a map from names to entries;
* `FileTree.getAt?`, `FileTree.setAt`, `FileTree.eraseAt`: the same along a path of names.
-/

namespace StubDecl

/-- The entries of a directory. -/
inductive FileTree (α : Type) where
  | nil
  | leaf (name : Text) (content : α) (rest : FileTree α)
  | dir (name : Text) (entries rest : FileTree α)
  deriving DecidableEq, Repr

namespace FileTree

variable {α : Type}

instance : Inhabited (FileTree α) := ⟨nil⟩

/-- What a name stands for: a leaf or a directory. -/
inductive Entry (α : Type) where
  | leaf (content : α)
  | dir (entries : FileTree α)
  deriving DecidableEq, Repr

/-- The tree with an entry in front. -/
def cons (name : Text) : Entry α → FileTree α → FileTree α
  | .leaf a, t => leaf name a t
  | .dir es, t => dir name es t

/-- The entry with a name. -/
def get? : FileTree α → Text → Option (Entry α)
  | nil, _ => none
  | leaf m a rest, n => if m = n then some (.leaf a) else rest.get? n
  | dir m es rest, n => if m = n then some (.dir es) else rest.get? n

/-- The tree with an entry under a name, in its place by the order of names. -/
def set : FileTree α → Text → Entry α → FileTree α
  | nil, n, e => cons n e nil
  | leaf m a rest, n, e =>
    if m = n then cons n e rest
    else if Text.le n m then cons n e (leaf m a rest)
    else leaf m a (rest.set n e)
  | dir m es rest, n, e =>
    if m = n then cons n e rest
    else if Text.le n m then cons n e (dir m es rest)
    else dir m es (rest.set n e)

/-- The tree without the entry of a name. -/
def erase : FileTree α → Text → FileTree α
  | nil, _ => nil
  | leaf m a rest, n => if m = n then rest else leaf m a (rest.erase n)
  | dir m es rest, n => if m = n then rest else dir m es (rest.erase n)

/-- The names of the entries. -/
def names : FileTree α → List Text
  | nil => []
  | leaf m _ rest => m :: rest.names
  | dir m _ rest => m :: rest.names

/-- The entry at the end of a path of names; the tree itself for the empty path. -/
def getAt? (t : FileTree α) : List Text → Option (Entry α)
  | [] => some (.dir t)
  | [n] => t.get? n
  | n :: ns =>
    match t.get? n with
    | some (.dir es) => es.getAt? ns
    | _ => none

/-- The tree with an entry at the end of a path of names. Nothing changes if the directories on the
way do not exist. -/
def setAt (t : FileTree α) (path : List Text) (e : Entry α) : FileTree α :=
  match path with
  | [] => t
  | [n] => t.set n e
  | n :: ns =>
    match t.get? n with
    | some (.dir es) => t.set n (.dir (es.setAt ns e))
    | _ => t

/-- The tree without the entry at the end of a path of names. -/
def eraseAt (t : FileTree α) (path : List Text) : FileTree α :=
  match path with
  | [] => t
  | [n] => t.erase n
  | n :: ns =>
    match t.get? n with
    | some (.dir es) => t.set n (.dir (es.eraseAt ns))
    | _ => t

/-- All paths below the directory whose path, with a slash behind it, is `base`, directories with a
slash behind them. -/
def listing (base : Text) : FileTree α → List Text
  | nil => []
  | leaf n _ rest => (base ++ n) :: rest.listing base
  | dir n es rest => (base ++ n ++ "/") :: (es.listing (base ++ n ++ "/") ++ rest.listing base)

/-- The places of all entries below the directory at a place, each directory in front of what is in
it. -/
def places (here : List Text) : FileTree α → List (List Text)
  | nil => []
  | leaf n _ rest => (here ++ [n]) :: rest.places here
  | dir n es rest => (here ++ [n]) :: (es.places (here ++ [n]) ++ rest.places here)

end FileTree

end StubDecl
