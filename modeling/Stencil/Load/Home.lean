import Stencil.Fault
import Stencil.Fields

/-!
# Paths below a home directory

A relative path whose first part begins with a tilde leads into a home directory: that of the user,
or that of the user whose name follows the tilde. Empty parts, and parts that are a single point,
do not count.
-/

namespace Stencil

/-- What names stand for directories: the home directories of users by their names, and that of the
user of the program under the empty name. -/
abbrev Homes := String → Option String

namespace Homes

/-- The home directory of a name; the environment may tell that of the user. -/
def ofEnvironment (homes : Homes) (environment : Fields String) : Homes := fun name =>
  if name.isEmpty then (environment.get? "HOME").or (homes name) else homes name

/-- The parts of a path that count. -/
def partsOf (path : List Char) : List (List Char) :=
  (path.splitOn '/').filter fun part => !(part.isEmpty || part == ['.'])

/-- A path from the root or a relative one, with more parts behind it. -/
def extended (path : List Char) (further : List (List Char)) : String :=
  let root := if path.head? = some '/' then ['/'] else []
  String.ofList (root ++ ['/'].intercalate (partsOf path ++ further))

/-- The directory that a part of a path stands for that begins with a tilde: the rest of it is the
name of a user. -/
def directoryOf (homes : Homes) (name : List Char) : Outcome (List Char) :=
  match homes (String.ofList name) with
  | none => .error .homeless
  | some directory =>
    let shortened := (directory.toList.reverse.dropWhile (· == '/')).reverse
    if shortened.head? = some '~' then .error .homeless
    else .ok (if shortened.isEmpty then ['/'] else shortened)

/-- A path with the home directory in place of its first part, if that begins with a tilde. -/
def expand (homes : Homes) (path : String) : Outcome String :=
  let chars := path.toList
  match chars.head?, partsOf chars with
  | some '/', _ => .ok path
  | _, ('~' :: name) :: rest => do return extended (← homes.directoryOf name) rest
  | _, _ => .ok path

end Homes
end Stencil
