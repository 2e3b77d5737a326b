import ClientRecords.Text.Digits
/-!
Addresses of hosts, of version 4 and version 6. A host that is not a valid address stands for the
local host.
-/

namespace ClientRecords

/-- An address: four octets, or eight groups of sixteen bits. -/
inductive HostAddress where
  | v4 (octets : List Nat)
  | v6 (groups : List Nat)
  deriving DecidableEq

namespace HostAddress

/-- The digits at the start of a text, of which there are at most some number. -/
def takeDigits (base most : Nat) (cs : List Char) : Option (List Char × List Char) :=
  let ds := cs.takeWhile (Text.isDigitIn base)
  if ds.isEmpty || most < ds.length then none else some (ds, cs.drop ds.length)

/-- A number from 0 to 255 in decimal without needless zeros. -/
def takeOctet (cs : List Char) : Option (Nat × List Char) := do
  let (ds, rest) ← takeDigits 10 3 cs
  let n := Text.digitsValue 10 ds
  if (ds.head? = some '0' && ds.length != 1) || 255 < n then none else some (n, rest)

/-- A group in hexadecimal. -/
def takeGroup (cs : List Char) : Option (Nat × List Char) :=
  (takeDigits 16 4 cs).map fun (ds, rest) => (Text.digitsValue 16 ds, rest)

/-- A text without the character that it has to start with. -/
def after? (c : Char) : List Char → Option (List Char)
  | d :: cs => if d = c then some cs else none
  | [] => none

/-- Some more octets, a point in front of each. -/
def takeOctets : Nat → List Char → Option (List Nat × List Char)
  | 0, cs => some ([], cs)
  | n + 1, cs => do
    let (k, rest) ← takeOctet (← after? '.' cs)
    let (ks, rest) ← takeOctets n rest
    return (k :: ks, rest)

/-- The four octets at the start of a text. -/
def takeV4 (cs : List Char) : Option (List Nat × List Char) := do
  let (k, rest) ← takeOctet cs
  let (ks, rest) ← takeOctets 3 rest
  return (k :: ks, rest)

/-- The groups that octets make up, two octets each. -/
def groupsOf : List Nat → List Nat
  | a :: b :: rest => (a * 256 + b) :: groupsOf rest
  | _ => []

/-- Groups at the start of a text, at most as many as there is room for, with colons between them.
Octets may take the place of the last two; the flag tells whether they did. -/
def takeGroups : Nat → Bool → List Char → List Nat × Bool × List Char
  | 0, _, cs => ([], false, cs)
  | room + 1, first, cs =>
    let next := if first then some cs else after? ':' cs
    match if room = 0 then none else next.bind takeV4 with
    | some (octets, rest) => (groupsOf octets, true, rest)
    | none =>
      match next.bind takeGroup with
      | some (g, rest) =>
        let (gs, octets, rest) := takeGroups room false rest
        (g :: gs, octets, rest)
      | none => ([], false, cs)

/-- The eight groups at the start of a text. Two colons stand for the groups that are left out,
which are zero; no octets may come before them. -/
def takeV6 (cs : List Char) : Option (List Nat × List Char) :=
  let (front, octets, rest) := takeGroups 8 true cs
  if front.length = 8 then some (front, rest)
  else if octets then none
  else do
    let rest ← after? ':' (← after? ':' rest)
    let (back, _, rest) := takeGroups (7 - front.length) true rest
    return (front ++ List.replicate (8 - front.length - back.length) 0 ++ back, rest)

/-- The address that a text denotes. -/
def ofText? (s : String) : Option HostAddress :=
  match takeV4 s.toList with
  | some (octets, rest) => if rest.isEmpty then some (.v4 octets) else none
  | none =>
    match takeV6 s.toList with
    | some (groups, rest) => if rest.isEmpty then some (.v6 groups) else none
    | none => none

def local4 : HostAddress := .v4 [127, 0, 0, 1]

def octetsText (octets : List Nat) : String := ".".intercalate (octets.map toString)

def groupText (n : Nat) : String := String.ofList (Nat.toDigits 16 n)

def groupsText (gs : List Nat) : String := ":".intercalate (gs.map groupText)

/-- The number of zeros at the start of a list. -/
def leadingZeros (gs : List Nat) : Nat := (gs.takeWhile (· == 0)).length

/-- The start and the length of the first of the longest runs of zeros, `k` being the position of
the list. -/
def longestZeros : Nat → List Nat → Nat × Nat
  | k, [] => (k, 0)
  | k, g :: gs =>
    let here := leadingZeros (g :: gs)
    let later := longestZeros (k + 1) gs
    if later.2 ≤ here then (k, here) else later

/-- The text of eight groups, the longest run of zeros being left out if there are two or more. An
address of version 4 within one of version 6 shows its octets. -/
def v6Text (gs : List Nat) : String :=
  match gs with
  | [0, 0, 0, 0, 0, 0xffff, a, b] =>
    "::ffff:" ++ octetsText [a / 256, a % 256, b / 256, b % 256]
  | gs =>
    let (start, length) := longestZeros 0 gs
    if 1 < length then groupsText (gs.take start) ++ "::" ++ groupsText (gs.drop (start + length))
    else groupsText gs

/-- The text of an address and the number of a socket there. -/
def endpoint (a : HostAddress) (socket : Nat) : String :=
  match a with
  | .v4 octets => octetsText octets ++ ":" ++ toString socket
  | .v6 groups => "[" ++ v6Text groups ++ "]:" ++ toString socket

/-- The address to listen at. -/
def ofHost (host : String) : HostAddress := (ofText? host).getD local4

end HostAddress
end ClientRecords
