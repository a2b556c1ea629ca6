import StubDecl.File.Tree
import StubDecl.Glob

/-!
# Which files are converted

A scope says which relative paths are selected. A directory whose path with a slash behind it is
excluded is not entered. `Scope.select` lists the selected files of a tree in path order: entry by
entry, each directory in its place.
-/

namespace StubDecl

/-- The paths that are included and those that are excluded. -/
structure Scope where
  included : Text → Bool
  excluded : Text → Bool

namespace Scope

/-- The patterns in effect when none is given. -/
def usualIncludes : List Text := ["*.js"]

/-- The scope of include and exclude patterns. -/
def ofPatterns (includes excludes : List Text) : Scope where
  included := Glob.acceptsAny (if includes.isEmpty then usualIncludes else includes)
  excluded := Glob.acceptsAny excludes

/-- Whether a relative path is selected. -/
def selects (s : Scope) (rel : Text) : Bool := s.included rel && !s.excluded rel

/-- Whether a directory is entered. -/
def enters (s : Scope) (rel : Text) : Bool := !s.excluded (rel ++ "/")

variable {α : Type}

/-- The selected files of a directory with their relative paths, in path order. `base` is the path of
the directory with a slash behind it, or empty. -/
def select (s : Scope) (base : Text) : FileTree α → List (Text × α)
  | .nil => []
  | .leaf n a rest =>
    if s.selects (base ++ n) then (base ++ n, a) :: s.select base rest else s.select base rest
  | .dir n es rest =>
    if s.enters (base ++ n) then s.select (base ++ n ++ "/") es ++ s.select base rest
    else s.select base rest

/-- The selected paths whose files two trees do not share. -/
def changedPaths [BEq α] (s : Scope) (old new : FileTree α) : List Text :=
  let before := s.select [] old
  let after := s.select [] new
  ((before.filter fun f => !after.contains f) ++ after.filter fun f => !before.contains f).map (·.1)

end Scope

end StubDecl
