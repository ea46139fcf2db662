import DeclMerge.Declaration.Signature

/-!
# Members of scopes

A member is a declaration as one container sees it: declared there, or inherited by it and not
declared again. An inherited member stands for the members of the supertypes that it overrides.
Each declared member is told from every other by its container and its place in it, even from
members with an equal declaration.

## Main definitions

* `Member` — declared and inherited members
* `Member.roots` — the declared members at the bottom of what a member overrides
* `Member.sameRoots` — whether two members stand for the same declared members
-/

namespace DeclMerge

/-- The identity of a declared member: its container and its place there. -/
structure MemberId where
  owner : QualifiedName
  index : Nat
deriving DecidableEq, Repr, Inhabited

/-- A declaration as one container sees it. -/
inductive Member where
  | declared (owner : QualifiedName) (index : Nat) (declaration : Declaration)
  | inherited (owner : QualifiedName) (declaration : Declaration) (sources : List Member)
deriving Inhabited

namespace Member

/-- The container that a member belongs to. -/
def owner : Member → QualifiedName
  | .declared owner .. => owner
  | .inherited owner .. => owner

/-- The declaration of a member. -/
def declaration : Member → Declaration
  | .declared _ _ declaration => declaration
  | .inherited _ declaration _ => declaration

/-- The members of the supertypes that a member stands for; a declared one stands for itself. -/
def sources : Member → List Member
  | .declared .. => []
  | .inherited _ _ sources => sources

/-- Whether a member is inherited and not declared again. -/
def isInherited : Member → Bool
  | .declared .. => false
  | .inherited .. => true

/-- The name of a member. -/
def name (m : Member) : Name := m.declaration.name

/-- The kind of a member. -/
def kind (m : Member) : DeclarationKind := m.declaration.kind

/-- The signature of a member. -/
def signature (m : Member) : Signature := .of m.declaration

mutual
/-- The declared members at the bottom of a member, each once. -/
def roots : Member → List MemberId
  | .declared owner index _ => [⟨owner, index⟩]
  | .inherited _ _ sources => (rootsList sources).eraseDups
/-- The declared members at the bottom of several members, with repetitions. -/
def rootsList : List Member → List MemberId
  | [] => []
  | m :: ms => m.roots ++ rootsList ms
end

/-- Whether two members stand for the same declared members. -/
def sameRoots (a b : Member) : Bool :=
  a.roots.all (b.roots.contains ·) && b.roots.all (a.roots.contains ·)

theorem sameRoots_iff {a b : Member} :
    a.sameRoots b = true ↔ ∀ id, id ∈ a.roots ↔ id ∈ b.roots := by
  simp only [sameRoots, Bool.and_eq_true, List.all_eq_true, List.contains_iff_mem]
  exact ⟨fun h id => ⟨h.1 id, h.2 id⟩, fun h => ⟨fun id => (h id).1, fun id => (h id).2⟩⟩

end Member

end DeclMerge
