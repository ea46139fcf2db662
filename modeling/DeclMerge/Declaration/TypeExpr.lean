import DeclMerge.Name

/-!
# Type references

A type reference names a type: a classifier, its type arguments and a mark for nullability. Types
are not solved, so two references denote the same type exactly when they are equal.

## Main definitions

* `TypeExpr` — a classifier applied to arguments
* `TypeExpr.text` — the text of a type, like `Map<K, V>?`
* `TypeExpr.compare` — by classifier, then by arguments, then non-nullable first
-/

namespace DeclMerge

/-- A classifier applied to type arguments, possibly nullable. -/
structure TypeExpr where
  classifier : QualifiedName
  arguments : List TypeExpr
  nullable : Bool
deriving Repr, Inhabited

namespace TypeExpr

mutual
/-- Equality of types is decided part by part. -/
def decEq : (a b : TypeExpr) → Decidable (a = b)
  | ⟨c, as, n⟩, ⟨c', as', n'⟩ =>
    if hc : c = c' then
      if hn : n = n' then
        match decEqList as as' with
        | isTrue has => isTrue (by rw [hc, has, hn])
        | isFalse has => isFalse fun h => has (TypeExpr.mk.inj h).2.1
      else isFalse fun h => hn (TypeExpr.mk.inj h).2.2
    else isFalse fun h => hc (TypeExpr.mk.inj h).1
/-- Equality of lists of types is decided position by position. -/
def decEqList : (as bs : List TypeExpr) → Decidable (as = bs)
  | [], [] => isTrue rfl
  | [], _ :: _ => isFalse (by simp)
  | _ :: _, [] => isFalse (by simp)
  | a :: as, b :: bs =>
    match decEq a b with
    | isTrue h =>
      match decEqList as bs with
      | isTrue hs => isTrue (by rw [h, hs])
      | isFalse hs => isFalse fun e => hs (List.cons.inj e).2
    | isFalse h => isFalse fun e => h (List.cons.inj e).1
end

instance : DecidableEq TypeExpr := decEq

/-- The nullable form of a type. -/
def asNullable (type : TypeExpr) : TypeExpr := { type with nullable := true }

mutual
/-- The text of a type: its classifier, its arguments between angle brackets when there are any,
and a question mark when it is nullable. -/
def text : TypeExpr → String
  | ⟨classifier, [], nullable⟩ => classifier.display ++ if nullable then "?" else ""
  | ⟨classifier, argument :: arguments, nullable⟩ =>
    classifier.display ++ "<" ++ argument.text ++ textAfter arguments ++ ">" ++
      if nullable then "?" else ""
/-- The texts of the arguments after the first one, each behind a comma. -/
def textAfter : List TypeExpr → String
  | [] => ""
  | argument :: arguments => ", " ++ argument.text ++ textAfter arguments
end

mutual
/-- The order by classifier, then by arguments, then non-nullable before nullable. Texts are
ordered by code point. -/
def compare : TypeExpr → TypeExpr → Ordering
  | ⟨c, as, n⟩, ⟨c', as', n'⟩ =>
    ((Ord.compare c.text c'.text).then (compareList as as')).then (Ord.compare n n')
/-- The lexicographic order of argument lists. -/
def compareList : List TypeExpr → List TypeExpr → Ordering
  | [], [] => .eq
  | [], _ :: _ => .lt
  | _ :: _, [] => .gt
  | a :: as, b :: bs => (a.compare b).then (compareList as bs)
end

end TypeExpr

end DeclMerge
