import DeclMerge.Text.Split

/-!
# Simple and qualified names

A qualified name is a text whose dots separate its segments; the empty text is the root. Nothing
else is required of either kind of name, so a name may hold any characters, and a qualified name
may have empty segments.

## Main definitions

* `Name` — a simple identifier
* `QualifiedName` — a dotted path
* `QualifiedName.child` / `QualifiedName.parent?` — one step down and one step up
* `QualifiedName.ancestors` — all steps up, to the root

## Main results

* `QualifiedName.length_lt_of_parent?` — a parent is shorter than its child
-/

namespace DeclMerge

/-- A simple identifier. -/
structure Name where
  text : String
deriving DecidableEq, Hashable, Repr, Inhabited

/-- A dotted path; the empty text is the root. -/
structure QualifiedName where
  text : String
deriving DecidableEq, Hashable, Repr, Inhabited

namespace Name

/-- A special name starts with `<` and ends with `>`, like `<init>`. -/
def isSpecial (name : Name) : Bool :=
  name.text.toList.head? = some '<' && name.text.toList.getLast? = some '>'

end Name

namespace QualifiedName

/-- The empty path. -/
def root : QualifiedName := ⟨""⟩

/-- Whether a path is the empty one. -/
def isRoot (q : QualifiedName) : Bool := q.text.isEmpty

/-- The path with one more segment; the root adds no dot. -/
def child (q : QualifiedName) (name : Name) : QualifiedName :=
  if q.isRoot then ⟨name.text⟩ else ⟨q.text ++ "." ++ name.text⟩

/-- The path up to its last dot, or the root when it has none. The root has no parent. -/
def parent? (q : QualifiedName) : Option QualifiedName :=
  if q.isRoot then none
  else
    match Text.cutLast? '.' q.text.toList with
    | some (before, _) => some ⟨String.ofList before⟩
    | none => some root

/-- What follows the last dot, or the whole text when there is none. -/
def shortName (q : QualifiedName) : Name :=
  match Text.cutLast? '.' q.text.toList with
  | some (_, after) => ⟨String.ofList after⟩
  | none => ⟨q.text⟩

/-- The pieces between the dots that are not empty. -/
def segments (q : QualifiedName) : List String :=
  ((Text.splitOn '.' q.text.toList).filter fun piece => !piece.isEmpty).map String.ofList

/-- The text shown for a path; the root shows as `<root>`. -/
def display (q : QualifiedName) : String :=
  if q.isRoot then "<root>" else q.text

/-- A parent is shorter than its child. -/
theorem length_lt_of_parent? {q p : QualifiedName} (h : q.parent? = some p) :
    p.text.length < q.text.length := by
  unfold parent? at h
  split at h
  · simp at h
  · rename_i hroot
    split at h
    · rename_i before after hcut
      obtain rfl := Option.some.inj h
      have hlen := congrArg List.length (Text.cutLast?_eq_some hcut).1
      simp only [List.length_append, List.length_cons, String.length_toList] at hlen
      simp only [String.length_ofList]
      omega
    · obtain rfl := Option.some.inj h
      simp only [isRoot, root] at hroot ⊢
      have hne : q.text ≠ "" := by simpa using hroot
      have : q.text.length ≠ 0 := by simpa using hne
      simpa [Nat.pos_iff_ne_zero] using this

/-- The parent of a path, the parent of that, and so on to the root. -/
def ancestors (q : QualifiedName) : List QualifiedName :=
  match _h : q.parent? with
  | none => []
  | some p => p :: p.ancestors
termination_by q.text.length
decreasing_by exact length_lt_of_parent? _h

end QualifiedName

end DeclMerge
