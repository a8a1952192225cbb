import OpcodeConformance.Bytes

namespace OpcodeConformance.Path

def parts : List Char → List (List Char)
  | [] => [[]]
  | '/' :: cs => [] :: parts cs
  | c :: cs =>
    match parts cs with
    | p :: ps => (c :: p) :: ps
    | [] => [[c]]

/-- The steps of a path. An empty step and a single point stay where they are. -/
def steps (path : String) : List String := (parts path.toList).map String.ofList

def isAbsolute (path : String) : Bool := path.toList.head? = some '/'

/-- The path of `file` seen from `base`. An absolute `file` stands for itself. -/
def join (base file : String) : String :=
  if isAbsolute file then file
  else if base.isEmpty || base.toList.getLast? = some '/' then base ++ file
  else base ++ "/" ++ file

def isStill (step : String) : Bool := step = "" || step = "."

/-- The last name in a path; nothing if the path ends by going up. -/
def fileName? (path : String) : Option String :=
  match ((steps path).filter fun s => !isStill s).getLast? with
  | some ".." => none
  | name => name

/-- What follows the last point of a name, unless the point is the first character. -/
def extension? (name : String) : Option String :=
  let cs := name.toList.reverse
  match cs.dropWhile (· ≠ '.') with
  | _ :: _ :: _ => some (String.ofList (cs.takeWhile (· ≠ '.')).reverse)
  | _ => none

end OpcodeConformance.Path
