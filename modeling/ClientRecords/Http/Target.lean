/-!
The targets of requests. A target is a path, or an address with a scheme and a host in front of the
path; a query or a fragment may follow. Other targets, such as a host alone, have no path.
-/

namespace ClientRecords.RequestTarget

def isSchemeChar (c : Char) : Bool := c.isAlphanum || c == '+' || c == '-' || c == '.'

/-- What follows the scheme of an address: the host and the path. -/
def afterScheme? (cs : List Char) : Option (List Char) :=
  match cs.takeWhile isSchemeChar, cs.dropWhile isSchemeChar with
  | _ :: _, ':' :: '/' :: '/' :: rest => some rest
  | _, _ => none

/-- The path of a target without its query. -/
def path? (target : String) : Option (List Char) :=
  let cs := target.toList.takeWhile fun c => c != '?' && c != '#'
  if cs.head? = some '/' then some cs
  else do
    let rest ← afterScheme? cs
    if rest.head?.all (· == '/') then none else some (rest.dropWhile (· != '/'))

/-- The steps of the path of a target; none without a path. -/
def steps (target : String) : List String :=
  match path? target with
  | some path => (path.tail.splitOn '/').map String.ofList
  | none => []

end ClientRecords.RequestTarget
