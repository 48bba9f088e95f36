import Gridfill.Text.Cut

/-!
# Part names

Parts are named by paths with slashes. A relationship names its target relative to the directory of
the part that it starts from, or absolutely with a slash in front; the relationships of a part stand
in a part of their own in the directory `_rels` beside it.
-/

namespace Gridfill.PartName

/-- The pieces of a path up to and including its last slash, and behind it. -/
def cutFile (path : List Char) : List Char × List Char :=
  match Text.cutAtLast '/' path with
  | (some directory, file) => (directory ++ ['/'], file)
  | (none, file) => ([], file)

/-- A directory without the slashes at its end, unless it is nothing but slashes. -/
def trimSlashes (directory : List Char) : List Char :=
  if directory.all (· = '/') then directory
  else (directory.reverse.dropWhile (· = '/')).reverse

/-- The directory of a part. -/
def directoryChars (path : List Char) : List Char := trimSlashes (cutFile path).1

/-- The directory of a part. -/
def directory (path : String) : String := String.ofList (directoryChars path.toList)

/-- A path behind a directory; a path that begins with a slash stands alone. -/
def joinChars (directory path : List Char) : List Char :=
  if path.head? = some '/' then path
  else if directory.isEmpty || directory.getLast? = some '/' then directory ++ path
  else directory ++ '/' :: path

/-- One step of a path, behind the steps so far in reverse. A step up undoes the step before it; at
the root it goes nowhere, and elsewhere steps up in front are kept. -/
def pushStep (rooted : Bool) (done : List (List Char)) (step : List Char) : List (List Char) :=
  if step = [] ∨ step = ['.'] then done
  else if step = ['.', '.'] then
    match done with
    | [] => if rooted then [] else [step]
    | last :: before => if last = ['.', '.'] then step :: last :: before else before
  else step :: done

/-- The slashes in front of a path: two stay two, and any other number becomes one. -/
def leadingSlashes (path : List Char) : List Char :=
  match path with
  | '/' :: '/' :: '/' :: _ => ['/']
  | '/' :: '/' :: _ => ['/', '/']
  | '/' :: _ => ['/']
  | _ => []

/-- A path without empty steps, steps in place and steps that are undone. -/
def normalChars (path : List Char) : List Char :=
  let front := leadingSlashes path
  let steps := (Text.fields '/' path).foldl (pushStep (!front.isEmpty)) []
  let whole := front ++ Text.joinWith ['/'] steps.reverse
  if whole.isEmpty then ['.'] else whole

/-- The part that a target names for a source in the given directory. -/
def resolve (directory target : String) : String :=
  match target.toList with
  | '/' :: rest => String.ofList rest
  | path => String.ofList (normalChars (joinChars directory.toList path))

/-- The part that holds the relationships of a part. -/
def relationships (part : String) : String :=
  let (front, file) := cutFile part.toList
  let inDirectory := joinChars (trimSlashes front) "_rels".toList
  String.ofList (joinChars inDirectory (file ++ ".rels".toList))

end Gridfill.PartName
