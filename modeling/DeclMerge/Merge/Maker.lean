import DeclMerge.Declaration.Basic
import DeclMerge.Merge.InputError

/-!
# Making merged declarations

A merge decides which declarations stand for several targets; a maker makes them. The standard
maker copies a declaration and sets the two flags that say whether it is expected or an
implementation. It refuses to make a declaration that is both.

## Main definitions

* `Maker` — how the four kinds of merged declarations are made
* `Maker.standard` — copies declarations and sets their flags
* `Maker.markingActuals` — a maker whose implementations carry further flags
-/

namespace DeclMerge

/-- How merged declarations are made. Each is made for a qualified name: the one that all targets
share, the expected side of a diverging one, one target's implementation of it, and the expected
side of a diverging type alias. -/
structure Maker where
  common : QualifiedName → Declaration → Except InputError Declaration
  expect : QualifiedName → Declaration → Except InputError Declaration
  actual : QualifiedName → Declaration → Target → Except InputError Declaration
  emptyClass : QualifiedName → Declaration → Except InputError Declaration

namespace Maker

/-- The declaration, unless it is both expected and an implementation. -/
def unlessBoth (name : QualifiedName) (d : Declaration) : Except InputError Declaration :=
  if d.isExpect && d.isActual then .error (.expectAndActual name) else .ok d

/-- The declaration as the expected side. -/
def expectSide (d : Declaration) : Declaration :=
  (d.withoutFlags .isActual).withFlags .isExpect

/-- The declaration as an implementation. -/
def actualSide (d : Declaration) : Declaration :=
  (d.withoutFlags .isExpect).withFlags .isActual

/-- An expected class without members, with the name and visibility of an alias. It is external
if the alias is. -/
def emptyClassOf (d : Declaration) : Declaration :=
  .class
    { name := d.name, visibility := d.visibility,
      flags := Flags.isExpect.union (d.flags.inter .isExternal) }
    .class [] []

/-- The maker that copies declarations and sets their flags. -/
def standard : Maker where
  common name d := unlessBoth name d
  expect name d := unlessBoth name (expectSide d)
  actual name d _ := unlessBoth name (actualSide d)
  emptyClass name d := unlessBoth name (emptyClassOf d)

/-- The maker whose implementations carry further flags. -/
def markingActuals (maker : Maker) (flags : Flags) : Maker :=
  { maker with
    actual := fun name d target => do return (← maker.actual name d target).withFlags flags }

end Maker

end DeclMerge
