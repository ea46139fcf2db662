import DeclMerge.Text.Blank
import DeclMerge.Text.Hex
import DeclMerge.Text.Split

/-!
# Declaration flags

Flags are sixteen bits, eleven of which have names. Their text lists the names of the bits that
are set, in the order of the bits, and ends with the unnamed bits as one hexadecimal number.
Reading takes names and numbers in any order, with blanks around them.

## Main definitions

* `Flags` — sixteen bits
* `Flags.union`, `Flags.diff`, `Flags.inter`, `Flags.contains` — bits as a set
* `Flags.named` — the bits that have names
* `Flags.text`, `Flags.ofText?` — writing and reading
-/

namespace DeclMerge

/-- The boolean attributes of a declaration, one bit each. -/
structure Flags where
  bits : UInt16
deriving DecidableEq, Repr, Inhabited

namespace Flags

/-- No attribute. -/
def empty : Flags := ⟨0⟩

/-- Declared for implementations elsewhere. -/
def isExpect : Flags := ⟨0x1⟩

/-- Implements an expected declaration. -/
def isActual : Flags := ⟨0x2⟩

/-- Implemented outside the language. -/
def isExternal : Flags := ⟨0x4⟩

/-- Initialised after construction. -/
def isLateInit : Flags := ⟨0x8⟩

/-- A compile-time constant. -/
def isConst : Flags := ⟨0x10⟩

/-- May be assigned again. -/
def isVar : Flags := ⟨0x20⟩

/-- May suspend its caller. -/
def isSuspend : Flags := ⟨0x40⟩

/-- Expanded where it is used. -/
def isInline : Flags := ⟨0x80⟩

/-- Compared and printed by its fields. -/
def isData : Flags := ⟨0x100⟩

/-- Holds a reference to its outer class. -/
def isInner : Flags := ⟨0x200⟩

/-- The companion of its outer class. -/
def isCompanion : Flags := ⟨0x400⟩

/-- The three attributes that every kind of declaration compares. -/
def multiplatform : Flags := ⟨0x7⟩

/-- The attributes of either set. -/
def union (a b : Flags) : Flags := ⟨a.bits ||| b.bits⟩

/-- The attributes of both sets. -/
def inter (a b : Flags) : Flags := ⟨a.bits &&& b.bits⟩

/-- The attributes of the first set that are not in the second one. -/
def diff (a b : Flags) : Flags := ⟨a.bits &&& ~~~b.bits⟩

/-- Whether all attributes of `b` are in `a`. -/
def contains (a b : Flags) : Bool := a.bits &&& b.bits = b.bits

/-- The bits that have names, in increasing order. -/
def named : List (String × Flags) :=
  [("IS_EXPECT", isExpect), ("IS_ACTUAL", isActual), ("IS_EXTERNAL", isExternal),
   ("IS_LATEINIT", isLateInit), ("IS_CONST", isConst), ("IS_VAR", isVar),
   ("IS_SUSPEND", isSuspend), ("IS_INLINE", isInline), ("IS_DATA", isData),
   ("IS_INNER", isInner), ("IS_COMPANION", isCompanion)]

/-- The bits that have no name. -/
def unnamed (flags : Flags) : Flags :=
  named.foldl (fun rest flag => rest.diff flag.2) flags

/-- The names of the bits that are set, in increasing order, and then the unnamed bits. -/
def parts (flags : Flags) : List String :=
  ((named.filter fun flag => flags.contains flag.2).map Prod.fst) ++
    if flags.unnamed = empty then []
    else ["0x" ++ String.ofList (Text.hexText flags.unnamed.bits.toNat)]

/-- The parts of a set of flags with bars between them. -/
def text (flags : Flags) : String :=
  Text.joinWith " | " flags.parts

/-- The number that hexadecimal digits denote, when it fits sixteen bits. -/
def ofHex? (digits : List Char) : Option Flags := do
  let value ← Text.hexNumber? digits
  if value ≤ 0xFFFF then some ⟨UInt16.ofNat value⟩ else none

/-- One part of a list of flags: a number behind `0x`, which may have a plus sign, or a name. -/
def part? : List Char → Option Flags
  | '0' :: 'x' :: '+' :: digits => ofHex? digits
  | '0' :: 'x' :: digits => ofHex? digits
  | name => (named ++ [("MULTIPLATFORM", multiplatform)]).lookup (String.ofList name)

/-- The flags of a text: none for a blank text, else the union of the parts between bars. -/
def ofText? (text : String) : Option Flags :=
  match Text.trim text.toList with
  | [] => some empty
  | cs => do
    let parts ← (Text.splitOn '|' cs).mapM fun piece => part? (Text.trim piece)
    return parts.foldl union empty

end Flags

end DeclMerge
