import ClientRecords.Arithmetic
/-!
Stable sorting by comparisons. A list of up to twenty elements is sorted by insertion. A longer one
is cut into runs, which are merged; runs that are not in order yet are sorted by partition around
pivots, and short parts by insertion into two halves that are merged from both ends.

For a total order the result is the one that every stable sort gives. Where the order contradicts
itself, the result hangs on which elements are compared with each other, so the choice of the
elements is a part of this definition; and the merge from both ends finds contradictions, at which
the sort breaks off.
-/

namespace ClientRecords

/-- Puts an element into a sorted list, kept in reverse: behind every element it does not come
before. -/
def insertLast {α : Type} (before : α → α → Bool) (x : α) : List α → List α
  | [] => [x]
  | y :: ys => if before x y then y :: insertLast before x ys else x :: y :: ys

/-- Puts elements into a sorted list one after the other. -/
def insertAll {α : Type} (before : α → α → Bool) (sorted xs : List α) : List α :=
  (xs.foldl (fun sorted x => insertLast before x sorted) sorted.reverse).reverse

/-- Sorts by putting one element after the other into its place; equal elements keep their order. -/
def sortStable {α : Type} (before : α → α → Bool) (xs : List α) : List α := insertAll before [] xs

namespace Sorting

variable {α : Type} (before : α → α → Bool)

/-- Four elements in order, by two pairs. -/
def four (p q r s : α) : List α :=
  let (a, b) := if before q p then (q, p) else (p, q)
  let (c, d) := if before s r then (s, r) else (r, s)
  let lower := before c a
  let upper := before d b
  let first := if lower then c else a
  let last := if upper then b else d
  let left := if lower then a else if upper then c else b
  let right := if upper then d else if lower then b else c
  if before right left then [first, right, left, last] else [first, left, right, last]

/-- Sorts one half of a short list; in a list of eight or more its first four elements at once. -/
def half (long : Bool) : List α → List α
  | p :: q :: r :: s :: rest =>
    if long then insertAll before (four before p q r s) rest
    else sortStable before (p :: q :: r :: s :: rest)
  | xs => sortStable before xs

/-- Some steps of the merge of two lists from the front: the elements, and how many of them come
from the left list. -/
def frontSteps : Nat → List α → List α → List α × Nat
  | n + 1, x :: xs, y :: ys =>
    if before y x then
      let (taken, lefts) := frontSteps n (x :: xs) ys
      (y :: taken, lefts)
    else
      let (taken, lefts) := frontSteps n xs (y :: ys)
      (x :: taken, lefts + 1)
  | _, _, _ => ([], 0)

/-- Some steps of the merge of two lists from the back, the lists and the result being given in
reverse. -/
def backSteps : Nat → List α → List α → List α × Nat
  | n + 1, x :: xs, y :: ys =>
    if before y x then
      let (taken, lefts) := backSteps n xs (y :: ys)
      (x :: taken, lefts + 1)
    else
      let (taken, lefts) := backSteps n (x :: xs) ys
      (y :: taken, lefts)
  | _, _, _ => ([], 0)

/-- Merges two lists of the same length, or with one element more on the right, from both ends; none
if the ends do not meet. -/
def meet (xs ys : List α) : Option (List α) :=
  let steps := (xs.length + ys.length) / 2
  let (front, lefts) := frontSteps before steps xs ys
  let (back, rightLefts) := backSteps before steps xs.reverse ys.reverse
  let fromLeft := lefts + rightLefts
  if (xs.length + ys.length) % 2 = 0 then
    if fromLeft = xs.length then some (front ++ back.reverse) else none
  else if fromLeft + 1 = xs.length then some (front ++ xs[lefts]?.toList ++ back.reverse)
  else if fromLeft = xs.length then some (front ++ ys[steps - lefts]?.toList ++ back.reverse)
  else none

/-- The most elements that are sorted in two halves. -/
def shortLimit : Nat := 32

/-- Sorts a short list in two halves. -/
def short (xs : List α) : Option (List α) :=
  if xs.length < 2 then some xs
  else
    let long := 8 ≤ xs.length
    meet before (half before long (xs.take (xs.length / 2)))
      (half before long (xs.drop (xs.length / 2)))

/-- The merge of two lists from the front, the left one first where elements are equal. -/
def mergeFront : List α → List α → List α
  | [], ys => ys
  | xs, [] => xs
  | x :: xs, y :: ys =>
    if before y x then y :: mergeFront (x :: xs) ys else x :: mergeFront xs (y :: ys)

/-- The merge of two lists from the back, all being given in reverse. -/
def mergeBack : List α → List α → List α
  | [], ys => ys
  | xs, [] => xs
  | x :: xs, y :: ys =>
    if before y x then x :: mergeBack xs (y :: ys) else y :: mergeBack (x :: xs) ys

/-- The merge of two sorted lists, from the end at which the shorter one lies. -/
def merge (xs ys : List α) : List α :=
  if xs.length ≤ ys.length then mergeFront before xs ys
  else (mergeBack before xs.reverse ys.reverse).reverse

/-- A part of the list, perhaps not in order yet. -/
structure Run (α : Type) where
  items : List α
  sorted : Bool

/-- The number of elements that go on with a run after one of them. -/
def goingOn (next : α → α → Bool) : α → List α → Nat
  | _, [] => 0
  | x, y :: ys => if next x y then goingOn next y ys + 1 else 0

/-- The run at the start of a list if it is long enough; a strictly falling one is turned. -/
def foundRun? (least : Nat) : List α → Option (Run α × List α)
  | x :: y :: ys =>
    let falls := before y x
    let next := if falls then fun a b => before b a else fun a b => !before b a
    let n := goingOn next y ys + 2
    let run := (x :: y :: ys).take n
    if least ≤ n then some (⟨if falls then run.reverse else run, true⟩, (x :: y :: ys).drop n)
    else none
  | _ => none

/-- The next run of a list: one that is found in it, else the first elements, which are sorted at
once in an eager sort. -/
def nextRun (eager : Bool) (least : Nat) (xs : List α) : Option (Run α × List α) :=
  match foundRun? before least xs with
  | some found => some found
  | none =>
    if eager then
      (short before (xs.take shortLimit)).map fun run => (⟨run, true⟩, xs.drop shortLimit)
    else some (⟨xs.take least, false⟩, xs.drop least)

/-- Joins two neighbouring runs. Two that are not in order stay so; else both are put in order with
a given sort and merged. -/
def joinRuns (sort : List α → Option (List α)) (l r : Run α) : Option (Run α) :=
  if !l.sorted && !r.sorted then some ⟨l.items ++ r.items, false⟩
  else do
    let xs ← if l.sorted then pure l.items else sort l.items
    let ys ← if r.sorted then pure r.items else sort r.items
    return ⟨merge before xs ys, true⟩

/-- The depth in a balanced tree over `n` elements of the node that joins the runs that begin at
`left` and at `mid`, the second of which ends at `right`. -/
def joinDepth (n left mid right : Nat) : Nat :=
  let scale := (pow2 62 + n - 1) / n
  63 - (scale * (left + mid) ^^^ scale * (mid + right)).log2

/-- Joins a run with the runs before it, the nearest first, as long as their nodes lie no higher
than a depth. -/
def joinBack (join : Run α → Run α → Option (Run α)) (depth : Nat) :
    List (Run α × Nat) → Run α → Option (List (Run α × Nat) × Run α)
  | [], run => some ([], run)
  | (l, d) :: ls, run =>
    if depth ≤ d then (join l run).bind (joinBack join depth ls) else some ((l, d) :: ls, run)

/-- Cuts a list into runs and joins each with those before it as soon as its place in the tree is
known. `start` is where the run last found begins. -/
def joinAll (next : List α → Option (Run α × List α)) (join : Run α → Run α → Option (Run α))
    (n : Nat) : Nat → Nat → List (Run α × Nat) → Run α → List α → Option (Run α)
  | 0, _, _, _, _ => none
  | fuel + 1, start, earlier, run, rest =>
    if rest.isEmpty then (joinBack join 0 earlier run).map (·.2)
    else do
      let (found, after) ← next rest
      let mid := start + run.items.length
      let depth := joinDepth n start mid (mid + found.items.length)
      let (earlier, whole) ← joinBack join depth earlier run
      joinAll next join n fuel mid ((whole, depth) :: earlier) found after

/-- Sorts by merging runs. The given sort is used for runs that are not in order. -/
def byRuns (eager : Bool) (sort : List α → Option (List α)) (xs : List α) : Option (List α) := do
  let n := xs.length
  let least :=
    if n ≤ 64 * 64 then min (n - n / 2) 64
    else
      let shift := (1 + n.log2) / 2
      (pow2 shift + n / pow2 shift) / 2
  let next := nextRun before eager least
  let (first, rest) ← next xs
  let whole ← joinAll next (joinRuns before sort) n (n + 1) 0 [] first rest
  if whole.sorted then pure whole.items else sort whole.items

/-- The median of three elements with their positions. -/
def median (a b c : Nat × α) : Nat × α :=
  let x := before a.2 b.2
  if x == before a.2 c.2 then (if before b.2 c.2 != x then c else b) else a

/-- The median of elements around three positions, taken of medians for long lists. -/
def pivotAround? (xs : Array α) (a b c n : Nat) : Option (Nat × α) :=
  if 8 ≤ n then do
    let k := n / 8
    let x ← pivotAround? xs a (a + 4 * k) (a + 7 * k) k
    let y ← pivotAround? xs b (b + 4 * k) (b + 7 * k) k
    let z ← pivotAround? xs c (c + 4 * k) (c + 7 * k) k
    return median before x y z
  else do
    return median before (a, ← xs[a]?) (b, ← xs[b]?) (c, ← xs[c]?)
termination_by n
decreasing_by all_goals omega

/-- The element that a list is parted around, with its position. -/
def pivot? (xs : List α) : Option (Nat × α) :=
  let k := xs.length / 8
  pivotAround? before xs.toArray 0 (4 * k) (7 * k) k

/-- The elements that pass a test and those that do not, the one at a position being told apart. -/
def part (passes : α → Bool) (position : Nat) (atPosition : Bool) (xs : List α) :
    List α × List α :=
  let (ls, rs) := xs.zipIdx.partition fun (x, k) => if k = position then atPosition else passes x
  (ls.map Prod.fst, rs.map Prod.fst)

/-- Sorts by partition. `lower` is the pivot below which no element lies; where the pivot is not
above it, its equals are set apart. After too many steps runs are merged instead. -/
def byParts : Nat → Nat → Option α → List α → Option (List α)
  | 0, _, _, _ => none
  | fuel + 1, limit, lower, xs =>
    if xs.length ≤ shortLimit then short before xs
    else
      match limit with
      | 0 => byRuns before true some xs
      | limit + 1 => do
        let (k, p) ← pivot? before xs
        let parts := part (fun x => before x p) k false xs
        if lower.any (fun a => !before a p) || parts.1.isEmpty then
          let (equals, rest) := part (fun x => !before p x) k true xs
          return equals ++ (← byParts fuel limit none rest)
        else
          let right ← byParts fuel limit (some p) parts.2
          return (← byParts fuel limit lower parts.1) ++ right

/-- Sorts a list that is not in order. -/
def unsorted (xs : List α) : Option (List α) :=
  byParts before (xs.length + 1) (2 * (xs.length ||| 1).log2) none xs

end Sorting

/-- Sorts a list; none if the order is found to contradict itself. -/
def sort? {α : Type} (before : α → α → Bool) (xs : List α) : Option (List α) :=
  if xs.length ≤ 20 then some (sortStable before xs)
  else
    Sorting.byRuns before (xs.length ≤ 2 * Sorting.shortLimit) (Sorting.unsorted before) xs

end ClientRecords
