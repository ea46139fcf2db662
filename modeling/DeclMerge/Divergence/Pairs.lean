import DeclMerge.Divergence.Checks
import DeclMerge.Target

/-!
# Comparing one declaration across targets

## Main definitions

* `Contribution` — what one target declares
* `pairVerdicts` — the verdicts on all pairs of contributions
* `contributionVerdict` — the causes of all pairs
-/

namespace DeclMerge

/-- What one target declares. -/
structure Contribution where
  target : Target
  declaration : Declaration

/-- The verdict on what two targets declare. -/
structure PairVerdict where
  left : Target
  right : Target
  verdict : Verdict

/-- The verdicts on all pairs of contributions: those of the first contribution with each later
one, then those of the second, and so on. -/
def pairVerdicts : List Contribution → List PairVerdict
  | [] => []
  | c :: cs =>
    (cs.map fun d =>
      ⟨c.target, d.target, declarationVerdict c.declaration d.declaration⟩) ++ pairVerdicts cs

/-- The verdict on all contributions: the causes of all pairs, in order. -/
def combineVerdicts (pairs : List PairVerdict) : Verdict :=
  .collect (pairs.map PairVerdict.verdict)

/-- The verdict on what several targets declare. -/
def contributionVerdict (contributions : List Contribution) : Verdict :=
  combineVerdicts (pairVerdicts contributions)

end DeclMerge
