import DeclMerge.Divergence.Cause
import DeclMerge.Grouping
import DeclMerge.Member.Basic

/-!
# Inherited members

The members with one name of one class are those it declares and those it inherits. A declared
member hides the inherited ones with its signature. What is left is collapsed where the same
declared members are reached on several ways, and joined by signature into one inherited member
each, with the most permissive visibility and a modality that the sources allow. Members that
cannot be joined clash; a clash is never an error.

## Main definitions

* `ClashKind`, `Clash` — what is wrong, and between which members
* `Resolution` — the members found, and the clashes on the way
* `distinctRoots` — members without those whose declared members came before
* `joinSources` — what becomes of the inherited members with one signature
* `Resolution.of` — the members and clashes of one name
-/

namespace DeclMerge

/-- What can be wrong with the members of one name. -/
inductive ClashKind where
  | incompatibleOverride | overridesFinal | incompatibleInherited | ambiguousVisibility
deriving DecidableEq, Repr, Inhabited

namespace ClashKind

/-- The words for a clash. -/
def text : ClashKind → String
  | .incompatibleOverride => "incompatible override"
  | .overridesFinal => "overrides final member"
  | .incompatibleInherited => "incompatible inherited members"
  | .ambiguousVisibility => "cannot infer visibility"

/-- The name of a kind of clash in documents. -/
def tag : ClashKind → String
  | .incompatibleOverride => "incompatible_override"
  | .overridesFinal => "overrides_final"
  | .incompatibleInherited => "incompatible_inherited"
  | .ambiguousVisibility => "ambiguous_visibility"

/-- The axis under which a clash is reported. -/
def axis : ClashKind → Axis
  | .ambiguousVisibility => .unknown
  | _ => .conflict

/-- The kinds of clashes in their fixed order. -/
def all : List ClashKind :=
  [.incompatibleOverride, .overridesFinal, .incompatibleInherited, .ambiguousVisibility]

end ClashKind

/-- A clash between members with one name, inherited members first. -/
structure Clash where
  owner : QualifiedName
  name : Name
  kind : ClashKind
  members : List Member

namespace Clash

/-- The cause that is reported for a clash. -/
def cause (clash : Clash) : Cause := .leaf clash.kind.axis

/-- The text of a clash. -/
def text (clash : Clash) : String :=
  clash.owner.display ++ "." ++ clash.name.text ++ ": " ++ clash.kind.text ++
    " between " ++ Text.joinWith " and " (clash.members.map fun m => m.owner.display)

end Clash

/-- The members of one name, and the clashes found on the way. -/
structure Resolution where
  members : List Member
  clashes : List Clash

/-- Whether two members are of one kind and give their names one type. -/
def Member.compatible (a b : Member) : Bool :=
  a.kind = b.kind && a.declaration.type? = b.declaration.type?

/-- What is wrong when `current` is declared over `inherited`. -/
def hidingClash? (inherited current : Member) : Option ClashKind :=
  if !inherited.compatible current then some .incompatibleOverride
  else if !inherited.declaration.modality.permitsOverride then some .overridesFinal
  else none

/-- The members that subclasses see. -/
def inheritable (members : List Member) : List Member :=
  members.filter fun m => m.declaration.visibility.passesDown

/-- The first declared member with the signature of `m`. -/
def hiding? (declared : List Member) (m : Member) : Option Member :=
  declared.find? fun d => d.signature = m.signature

/-- The clashes between declared members and the inherited ones that they hide. -/
def hidingClashes (owner : QualifiedName) (name : Name) (declared inherited : List Member) :
    List Clash :=
  inherited.filterMap fun m => do
    let current ← hiding? declared m
    let kind ← hidingClash? m current
    return ⟨owner, name, kind, [m, current]⟩

/-- The inherited members that no declared member hides. -/
def notHidden (declared inherited : List Member) : List Member :=
  inherited.filter fun m => (hiding? declared m).isNone

/-- The members whose declared members differ as a set from those of every member before. -/
def distinctRoots : List Member → List Member
  | [] => []
  | m :: ms => m :: (distinctRoots ms).filter fun n => !m.sameRoots n

/-- The modality of a member inherited from several sources: abstract if all of them are, else
open if one of them is open or abstract, else final. -/
def inheritedModality (sources : List Member) : Modality :=
  if sources.all fun m => m.declaration.modality = .abstract then .abstract
  else if sources.any fun m => m.declaration.modality = .open || m.declaration.modality = .abstract
  then .open
  else .final

/-- What becomes of the inherited members `first :: rest`, which have one signature. If their types
differ they are dropped with a clash. Else they become one member, whose visibility is unknown,
with a clash, when no source dominates the others. -/
def joinSources (owner : QualifiedName) (name : Name) (first : Member) (rest : List Member) :
    Resolution :=
  let sources := first :: rest
  let clash (kind : ClashKind) : Clash := ⟨owner, name, kind, sources⟩
  let joined (visibility : Visibility) : Member :=
    .inherited owner
      ((first.declaration.withVisibility visibility).withModality (inheritedModality sources))
      sources
  if rest.all first.compatible then
    match Visibility.dominant? (sources.map fun m => m.declaration.visibility) with
    | some visibility => ⟨[joined visibility], []⟩
    | none => ⟨[joined .unknown], [clash .ambiguousVisibility]⟩
  else ⟨[], [clash .incompatibleInherited]⟩

/-- What becomes of each group of inherited members with one signature. -/
def joinGroups (owner : QualifiedName) (name : Name) (groups : List (Signature × List Member)) :
    List Resolution :=
  groups.filterMap fun group =>
    match group.2 with
    | [] => none
    | first :: rest => some (joinSources owner name first rest)

/-- The members and clashes of one name of a class: `declared` are those that the class
declares, `fromSupertypes` those of its supertypes, all of one kind. -/
def Resolution.of (owner : QualifiedName) (name : Name)
    (declared fromSupertypes : List Member) : Resolution :=
  let inherited := inheritable fromSupertypes
  let groups := Grouping.ofList Member.signature (distinctRoots (notHidden declared inherited))
  let joined := joinGroups owner name groups.groups
  ⟨declared ++ joined.flatMap Resolution.members,
    hidingClashes owner name declared inherited ++ joined.flatMap Resolution.clashes⟩

end DeclMerge
