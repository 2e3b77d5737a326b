/-!
Runs of characters that a case mapping moves by one common distance. The tables of the case
mappings list such runs instead of single characters.
-/

namespace ClientRecords.Text

/-- The code points `first`, `first + step`, … up to `last`, each mapped `delta` further. -/
structure CaseRun where
  first : Nat
  last : Nat
  step : Nat
  delta : Int

namespace CaseRun

def covers (r : CaseRun) (n : Nat) : Bool :=
  r.first ≤ n && n ≤ r.last && (n - r.first) % r.step == 0

/-- The character that a list of runs maps a character to; one outside all runs is kept. -/
def mapChar (runs : List CaseRun) (c : Char) : Char :=
  match runs.find? (·.covers c.toNat) with
  | some r => Char.ofNat (c.toNat + r.delta).toNat
  | none => c

end CaseRun

/-- Does a code point lie in one of the closed ranges? -/
def inRanges (ranges : List (Nat × Nat)) (n : Nat) : Bool :=
  ranges.any fun (first, last) => first ≤ n && n ≤ last

end ClientRecords.Text
