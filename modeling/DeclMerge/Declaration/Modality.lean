/-!
# Modality and class kind

## Main definitions

* `Modality` — whether a declaration may be overridden or must be
* `ClassKind` — the kinds of classes
-/

namespace DeclMerge

/-- Whether a declaration may be overridden or must be. -/
inductive Modality where
  | final | «open» | «abstract» | «sealed»
deriving DecidableEq, Repr, Inhabited

namespace Modality

/-- Everything but a final declaration may be overridden. -/
def permitsOverride (modality : Modality) : Bool := modality ≠ .final

/-- The word for a modality. -/
def text : Modality → String
  | .final => "final"
  | .open => "open"
  | .abstract => "abstract"
  | .sealed => "sealed"

/-- The modalities by their words. -/
def table : List (String × Modality) :=
  [.final, .open, .abstract, .sealed].map fun m => (m.text, m)

end Modality

/-- The kinds of classes. -/
inductive ClassKind where
  | «class» | interface | object | enumClass | enumEntry | annotationClass
deriving DecidableEq, Repr, Inhabited

namespace ClassKind

/-- The words shown for a kind of class. -/
def text : ClassKind → String
  | .class => "class"
  | .interface => "interface"
  | .object => "object"
  | .enumClass => "enum class"
  | .enumEntry => "enum entry"
  | .annotationClass => "annotation class"

/-- The name of a kind of class in documents. -/
def tag : ClassKind → String
  | .class => "class"
  | .interface => "interface"
  | .object => "object"
  | .enumClass => "enum_class"
  | .enumEntry => "enum_entry"
  | .annotationClass => "annotation_class"

/-- The kinds of classes by their names in documents. -/
def table : List (String × ClassKind) :=
  [.class, .interface, .object, .enumClass, .enumEntry, .annotationClass].map fun k => (k.tag, k)

end ClassKind

end DeclMerge
