import Supergraph.Text.CaseMap
import Supergraph.Text.CaseClass

namespace Supergraph.Text

def mapCase (expansions : List (Nat × List Nat)) (runs : List CaseRun) (c : Char) : List Char :=
  match expansions.lookup c.toNat with
  | some codes => codes.map Char.ofNat
  | none => [((runs.findSome? (·.map? c.toNat)).map Char.ofNat).getD c]

def upperChar (c : Char) : List Char := mapCase upperExpansions upperRuns c

def lowerChar (c : Char) : List Char := mapCase lowerExpansions lowerRuns c

def toUpper (s : String) : String := String.ofList (s.toList.flatMap upperChar)

def startsCased (cs : List Char) : Bool := (cs.dropWhile isCaseIgnorable).head?.any isCased

/--
A sigma ends a word if a cased character comes before it and none after it. The characters before
are given in reverse.
-/
def endsWord (before after : List Char) : Bool := startsCased before && !startsCased after

def toLower.go (before : List Char) : List Char → List Char
  | [] => []
  | c :: rest =>
    let lowered := if c = 'Σ' then [if endsWord before rest then 'ς' else 'σ'] else lowerChar c
    lowered ++ go (c :: before) rest

def toLower (s : String) : String := String.ofList (toLower.go [] s.toList)

theorem mapCase_ne_nil {expansions : List (Nat × List Nat)} {runs : List CaseRun}
    (h : ∀ e ∈ expansions, e.2 ≠ []) (c : Char) : mapCase expansions runs c ≠ [] := by
  unfold mapCase
  split
  . rename_i codes hcodes
    simp only [ne_eq, List.map_eq_nil_iff]
    obtain ⟨l₁, l₂, hmem, _⟩ := List.lookup_eq_some_iff.1 hcodes
    exact h (c.toNat, codes) (by rw [hmem]; simp)
  . simp

theorem upperChar_ne_nil (c : Char) : upperChar c ≠ [] :=
  mapCase_ne_nil (by decide) c

end Supergraph.Text
