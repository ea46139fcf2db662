import DeclMerge.Declaration.Flags
import DeclMerge.Declaration.Modality
import DeclMerge.Declaration.TypeExpr
import DeclMerge.Declaration.Visibility

/-!
# Declarations

A declaration is a function, a property, a class, a type alias or a value. All of them carry a
header; classes own their members, so the declarations of a package form a forest.

## Main definitions

* `Header` — name, visibility, modality and flags
* `Parameter` — a value parameter of a function
* `Declaration` — the five kinds of declarations
* `Declaration.members` — the members of a class
* `Declaration.type?` — the type that a declaration gives to its name
-/

namespace DeclMerge

/-- The kinds of declarations. -/
inductive DeclarationKind where
  | function | property | «class» | typeAlias | value
deriving DecidableEq, Repr, Inhabited

namespace DeclarationKind

/-- Classes and type aliases both introduce a classifier. -/
def isClassifier : DeclarationKind → Bool
  | .class | .typeAlias => true
  | _ => false

/-- The word shown for a kind. -/
def text : DeclarationKind → String
  | .function => "function"
  | .property => "property"
  | .class => "class"
  | .typeAlias => "typealias"
  | .value => "value"

/-- The name of a kind in documents. -/
def tag : DeclarationKind → String
  | .function => "function"
  | .property => "property"
  | .class => "class"
  | .typeAlias => "type_alias"
  | .value => "value"

/-- The kinds in their fixed order, in which documents may also number them. -/
def all : List DeclarationKind := [.function, .property, .class, .typeAlias, .value]

end DeclarationKind

/-- What every kind of declaration carries. -/
structure Header where
  name : Name
  visibility : Visibility := .public
  modality : Modality := .final
  flags : Flags := .empty
deriving DecidableEq, Repr, Inhabited

/-- A value parameter of a function. -/
structure Parameter where
  name : Name
  type : TypeExpr
  isVar : Bool := false
deriving DecidableEq, Repr, Inhabited

/-- A declaration of one of five kinds. -/
inductive Declaration where
  | function (header : Header) (receiver : Option TypeExpr) (parameters : List Parameter)
      (returnType : TypeExpr)
  | property (header : Header) (receiver : Option TypeExpr) (type : TypeExpr)
  | «class» (header : Header) (kind : ClassKind) (supertypes : List TypeExpr)
      (members : List Declaration)
  | typeAlias (header : Header) (underlying : TypeExpr) (expanded : TypeExpr)
  | value (header : Header) (type : TypeExpr)
deriving Repr, Inhabited

namespace Declaration

mutual
/-- Equality of declarations is decided part by part. -/
def decEq : (a b : Declaration) → Decidable (a = b)
  | .function h r ps t, .function h' r' ps' t' =>
    decidable_of_iff (h = h' ∧ r = r' ∧ ps = ps' ∧ t = t') (by simp)
  | .property h r t, .property h' r' t' =>
    decidable_of_iff (h = h' ∧ r = r' ∧ t = t') (by simp)
  | .class h k ss ms, .class h' k' ss' ms' =>
    match decEqList ms ms' with
    | isTrue hms => decidable_of_iff (h = h' ∧ k = k' ∧ ss = ss') (by simp [hms])
    | isFalse hms => isFalse fun e => hms (by injection e)
  | .typeAlias h u e, .typeAlias h' u' e' =>
    decidable_of_iff (h = h' ∧ u = u' ∧ e = e') (by simp)
  | .value h t, .value h' t' => decidable_of_iff (h = h' ∧ t = t') (by simp)
  | .function .., .property .. | .function .., .class .. | .function .., .typeAlias ..
  | .function .., .value .. | .property .., .function .. | .property .., .class ..
  | .property .., .typeAlias .. | .property .., .value .. | .class .., .function ..
  | .class .., .property .. | .class .., .typeAlias .. | .class .., .value ..
  | .typeAlias .., .function .. | .typeAlias .., .property .. | .typeAlias .., .class ..
  | .typeAlias .., .value .. | .value .., .function .. | .value .., .property ..
  | .value .., .class .. | .value .., .typeAlias .. => isFalse nofun
/-- Equality of lists of declarations is decided position by position. -/
def decEqList : (as bs : List Declaration) → Decidable (as = bs)
  | [], [] => isTrue rfl
  | [], _ :: _ => isFalse (by simp)
  | _ :: _, [] => isFalse (by simp)
  | a :: as, b :: bs =>
    match decEq a b with
    | isTrue h =>
      match decEqList as bs with
      | isTrue hs => isTrue (by rw [h, hs])
      | isFalse hs => isFalse fun e => hs (List.cons.inj e).2
    | isFalse h => isFalse fun e => h (List.cons.inj e).1
end

instance : DecidableEq Declaration := decEq

/-- The header of a declaration. -/
def header : Declaration → Header
  | .function h .. | .property h .. | .class h .. | .typeAlias h .. | .value h .. => h

/-- The declaration with another header. -/
def withHeader (header : Header) : Declaration → Declaration
  | .function _ receiver parameters returnType => .function header receiver parameters returnType
  | .property _ receiver type => .property header receiver type
  | .class _ kind supertypes members => .class header kind supertypes members
  | .typeAlias _ underlying expanded => .typeAlias header underlying expanded
  | .value _ type => .value header type

/-- The name of a declaration. -/
def name (d : Declaration) : Name := d.header.name

/-- The visibility of a declaration. -/
def visibility (d : Declaration) : Visibility := d.header.visibility

/-- The modality of a declaration. -/
def modality (d : Declaration) : Modality := d.header.modality

/-- The flags of a declaration. -/
def flags (d : Declaration) : Flags := d.header.flags

/-- The kind of a declaration. -/
def kind : Declaration → DeclarationKind
  | .function .. => .function
  | .property .. => .property
  | .class .. => .class
  | .typeAlias .. => .typeAlias
  | .value .. => .value

/-- Whether a declaration is a class. -/
def isClass (d : Declaration) : Bool := d.kind = .class

/-- Whether a declaration awaits implementations elsewhere. -/
def isExpect (d : Declaration) : Bool := d.flags.contains .isExpect

/-- Whether a declaration implements an expected one. -/
def isActual (d : Declaration) : Bool := d.flags.contains .isActual

/-- The declaration with another visibility. -/
def withVisibility (d : Declaration) (visibility : Visibility) : Declaration :=
  d.withHeader { d.header with visibility }

/-- The declaration with another modality. -/
def withModality (d : Declaration) (modality : Modality) : Declaration :=
  d.withHeader { d.header with modality }

/-- The declaration with more flags. -/
def withFlags (d : Declaration) (flags : Flags) : Declaration :=
  d.withHeader { d.header with flags := d.flags.union flags }

/-- The declaration with fewer flags. -/
def withoutFlags (d : Declaration) (flags : Flags) : Declaration :=
  d.withHeader { d.header with flags := d.flags.diff flags }

/-- The function or property with an extension receiver; other kinds take none. -/
def withReceiver (d : Declaration) (receiver : TypeExpr) : Declaration :=
  match d with
  | .function header _ parameters returnType =>
    .function header (some receiver) parameters returnType
  | .property header _ type => .property header (some receiver) type
  | d => d

/-- The class with other members; other kinds have none. -/
def withMembers (d : Declaration) (members : List Declaration) : Declaration :=
  match d with
  | .class header kind supertypes _ => .class header kind supertypes members
  | d => d

/-- The members that a class declares; other kinds have none. -/
def members : Declaration → List Declaration
  | .class _ _ _ members => members
  | _ => []

/-- The supertypes that a class declares; other kinds have none. -/
def supertypes : Declaration → List TypeExpr
  | .class _ _ supertypes _ => supertypes
  | _ => []

/-- The classifiers of the declared supertypes. -/
def superclassifiers (d : Declaration) : List QualifiedName :=
  d.supertypes.map TypeExpr.classifier

/-- The type that a declaration gives to its name: what a function returns, what a property or a
value holds, what an alias expands to. A class gives none. -/
def type? : Declaration → Option TypeExpr
  | .function _ _ _ returnType => some returnType
  | .property _ _ type => some type
  | .value _ type => some type
  | .typeAlias _ _ expanded => some expanded
  | .class .. => none

/-- A value seen as a parameter. -/
def asParameter? : Declaration → Option Parameter
  | .value header type => some ⟨header.name, type, header.flags.contains .isVar⟩
  | _ => none

@[simp] theorem header_withHeader (header : Header) (d : Declaration) :
    (d.withHeader header).header = header := by
  cases d <;> rfl

@[simp] theorem kind_withHeader (header : Header) (d : Declaration) :
    (d.withHeader header).kind = d.kind := by
  cases d <;> rfl

@[simp] theorem members_withHeader (header : Header) (d : Declaration) :
    (d.withHeader header).members = d.members := by
  cases d <;> rfl

@[simp] theorem type?_withHeader (header : Header) (d : Declaration) :
    (d.withHeader header).type? = d.type? := by
  cases d <;> rfl

/-- A class is a larger value than each of its members. -/
theorem sizeOf_lt_of_mem_members {member d : Declaration} (h : member ∈ d.members) :
    sizeOf member < sizeOf d := by
  cases d with
  | «class» header kind supertypes members =>
    have hless : sizeOf member < sizeOf members := List.sizeOf_lt_of_mem h
    rw [Declaration.class.sizeOf_spec]
    omega
  | _ => cases h

/-- What passes from the members to a class holds of every declaration, if it holds of those that
have no members. -/
theorem induction {motive : Declaration → Prop}
    (step : ∀ d, (∀ member ∈ d.members, motive member) → motive d) (d : Declaration) : motive d :=
  step d fun member _ => induction step member
termination_by sizeOf d
decreasing_by exact sizeOf_lt_of_mem_members ‹_›

/-- A declaration is its payload with its own header. -/
@[simp] theorem withHeader_header (d : Declaration) : d.withHeader d.header = d := by
  cases d <;> rfl

end Declaration

end DeclMerge
