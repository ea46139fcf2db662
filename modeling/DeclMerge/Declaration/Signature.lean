import DeclMerge.Declaration.Basic

/-!
# Signatures

The signature of a declaration tells which declarations of different targets are the same one. A
function has a name, a receiver and parameter types in it, so that overloads stay apart; a
property its name and receiver; a classifier or a value its name alone.

## Main definitions

* `Signature` — group, name, receiver and parameter types
* `Signature.of` — the signature of a declaration
* `Signature.base` — the signature without parameter types

## Main results

* `Signature.base_base` — leaving out the parameter types twice changes nothing
* `Signature.of_withHeader` — of the header, only the name counts
-/

namespace DeclMerge

/-- Declarations of different groups are never the same one. -/
inductive SignatureGroup where
  | classifier | function | property | value
deriving DecidableEq, Hashable, Repr, Inhabited

namespace SignatureGroup

/-- The place of a group in the order of groups. -/
def rank : SignatureGroup → Nat
  | .classifier => 0
  | .function => 1
  | .property => 2
  | .value => 3

/-- The name of a group in documents. -/
def tag : SignatureGroup → String
  | .classifier => "classifier"
  | .function => "function"
  | .property => "property"
  | .value => "value"

/-- The word that the text of a signature starts with. -/
def word : SignatureGroup → String
  | .classifier => "classifier"
  | .function => "fun"
  | .property => "val"
  | .value => "param"

end SignatureGroup

/-- What identifies a declaration within its container. -/
structure Signature where
  group : SignatureGroup
  name : Name
  receiver : Option TypeExpr
  parameters : List TypeExpr
deriving DecidableEq, Repr, Inhabited

namespace Signature

/-- The signature of a declaration. -/
def of : Declaration → Signature
  | .function header receiver parameters _ =>
    ⟨.function, header.name, receiver, parameters.map Parameter.type⟩
  | .property header receiver _ => ⟨.property, header.name, receiver, []⟩
  | .class header .. => ⟨.classifier, header.name, none, []⟩
  | .typeAlias header .. => ⟨.classifier, header.name, none, []⟩
  | .value header _ => ⟨.value, header.name, none, []⟩

/-- The signature without parameter types, which overloads share. -/
def base (s : Signature) : Signature := { s with parameters := [] }

/-- The word of the group, the receiver with a dot when there is one, the name, and for functions
the parameter types between parentheses. -/
def text (s : Signature) : String :=
  s.group.word ++ " " ++ (s.receiver.elim "" fun receiver => receiver.text ++ ".") ++
    s.name.text ++
    if s.group = .function then
      "(" ++ Text.joinWith ", " (s.parameters.map TypeExpr.text) ++ ")"
    else ""

@[simp] theorem base_base (s : Signature) : s.base.base = s.base := rfl

@[simp] theorem name_of (d : Declaration) : (of d).name = d.name := by
  cases d <;> rfl

/-- Of the header, only the name enters the signature. -/
theorem of_withHeader {header : Header} {d : Declaration} (h : header.name = d.name) :
    of (d.withHeader header) = of d := by
  cases d <;> simp_all [of, Declaration.withHeader, Declaration.name, Declaration.header]

end Signature

end DeclMerge
