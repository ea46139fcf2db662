import DeclMerge.Declaration.Flags
import DeclMerge.Proofs.Steps
import DeclMerge.Proofs.Text.Pieces

/-!
# Flags read back

The text of flags names every bit that has a name and ends with all others as one number, so nothing
is lost in it, whatever sixteen bits there are.

## Main definitions

* `Flags.bit` — whether one of the bits is set
* `Flags.values` — what the parts of flags stand for

## Main results

* `Flags.foldl_union_values` — the parts of flags make up the flags
* `Flags.ofText?_text` — flags are read back from their text
-/

namespace DeclMerge.Flags

/-! ### Bits -/

/-- Whether one of the bits is set. -/
def bit (flags : Flags) (i : Nat) : Bool := flags.bits.toBitVec.getLsbD i

/-- Flags with the same bits are the same. -/
theorem eq_of_bit {a b : Flags} (h : ∀ i < 16, a.bit i = b.bit i) : a = b := by
  obtain ⟨a⟩ := a
  obtain ⟨b⟩ := b
  exact congrArg Flags.mk (UInt16.toBitVec_inj.mp (BitVec.eq_of_getLsbD_eq h))

@[simp] theorem bit_empty (i : Nat) : empty.bit i = false := by
  simp [bit, empty]

@[simp] theorem bit_union (a b : Flags) (i : Nat) :
    (a.union b).bit i = (a.bit i || b.bit i) := by
  simp [bit, union]

@[simp] theorem bit_inter (a b : Flags) (i : Nat) :
    (a.inter b).bit i = (a.bit i && b.bit i) := by
  simp [bit, inter]

@[simp] theorem bit_diff (a b : Flags) {i : Nat} (h : i < 16) :
    (a.diff b).bit i = (a.bit i && !b.bit i) := by
  simp [bit, diff, h]

theorem bit_foldl_union (parts : List Flags) (start : Flags) (i : Nat) :
    (parts.foldl union start).bit i = (start.bit i || parts.any fun part => part.bit i) := by
  induction parts generalizing start with
  | nil => simp
  | cons part parts ih => rw [List.foldl_cons, ih, bit_union, List.any_cons, Bool.or_assoc]

theorem bit_foldl_diff (flags : List (String × Flags)) (start : Flags) {i : Nat} (h : i < 16) :
    (flags.foldl (fun rest flag => rest.diff flag.2) start).bit i =
      (start.bit i && !flags.any fun flag => flag.2.bit i) := by
  induction flags generalizing start with
  | nil => simp
  | cons flag flags ih =>
    rw [List.foldl_cons, ih, bit_diff _ _ h, List.any_cons, Bool.not_or, Bool.and_assoc]

/-- A name stands for one bit. -/
theorem eq_of_bit_named : ∀ flag ∈ named, ∀ i < 16, ∀ j < 16,
    flag.2.bit i = true → flag.2.bit j = true → i = j := by
  decide

/-- Flags contain what a name stands for exactly if they have its bit. -/
theorem contains_iff_bit {flags : Flags} {flag : String × Flags} {i : Nat} (hflag : flag ∈ named)
    (hi : i < 16) (hbit : flag.2.bit i = true) :
    flags.contains flag.2 = true ↔ flags.bit i = true := by
  rw [contains, decide_eq_true_iff]
  constructor
  · intro hcontains
    rw [bit, ← hcontains] at hbit
    simp only [UInt16.toBitVec_and, BitVec.getLsbD_and, Bool.and_eq_true] at hbit
    exact hbit.1
  · intro hset
    apply UInt16.toBitVec_inj.mp
    apply BitVec.eq_of_getLsbD_eq
    intro j hj
    rw [UInt16.toBitVec_and, BitVec.getLsbD_and]
    change (flags.bit j && flag.2.bit j) = flag.2.bit j
    cases hother : flag.2.bit j with
    | false => rw [Bool.and_false]
    | true => rw [← eq_of_bit_named flag hflag i hi j hj hbit hother, hset, Bool.and_self]

/-! ### Parts -/

/-- What the parts of flags stand for, in their order. -/
def values (flags : Flags) : List Flags :=
  ((named.filter fun flag => flags.contains flag.2).map Prod.snd) ++
    if flags.unnamed = empty then [] else [flags.unnamed]

/-- Each bit is either in a part with a name or in the last one. -/
theorem foldl_union_values (flags : Flags) : flags.values.foldl union empty = flags := by
  apply eq_of_bit
  intro i hi
  have hnamed : ((named.filter fun flag => flags.contains flag.2).map Prod.snd).any
      (fun part => part.bit i) = (flags.bit i && named.any fun flag => flag.2.bit i) := by
    rw [Bool.eq_iff_iff]
    simp only [List.any_eq_true, Bool.and_eq_true, List.mem_map, List.mem_filter]
    constructor
    · rintro ⟨_, ⟨flag, ⟨hflag, hcontains⟩, rfl⟩, hbit⟩
      exact ⟨(contains_iff_bit hflag hi hbit).mp hcontains, flag, hflag, hbit⟩
    · rintro ⟨hset, flag, hflag, hbit⟩
      exact ⟨flag.2, ⟨flag, ⟨hflag, (contains_iff_bit hflag hi hbit).mpr hset⟩, rfl⟩, hbit⟩
  have hunnamed : (if flags.unnamed = empty then [] else [flags.unnamed]).any
      (fun part => part.bit i) = flags.unnamed.bit i := by
    split
    · rename_i hnone
      rw [hnone, bit_empty]
      rfl
    · simp
  rw [bit_foldl_union, bit_empty, Bool.false_or, values, List.any_append, hnamed, hunnamed,
    unnamed, bit_foldl_diff _ _ hi]
  -- A bit that is set is among those with names, or left over when these are taken away.
  cases flags.bit i <;> cases named.any fun flag => flag.2.bit i <;> rfl

/-! ### Reading -/

theorem isWord_named : ∀ flag ∈ named, Text.IsWord '|' flag.1.toList := by
  have hall : ∀ flag ∈ named, flag.1.toList ≠ [] ∧
      (flag.1.toList.all fun c => !Text.isBlank c) = true ∧ '|' ∉ flag.1.toList := by decide
  intro flag hflag
  obtain ⟨hne, hblank, hbar⟩ := hall flag hflag
  exact ⟨hne, fun c hc => by simpa using List.all_eq_true.mp hblank c hc, hbar⟩

theorem part?_named : ∀ flag ∈ named, part? flag.1.toList = some flag.2 := by
  decide

/-- Hexadecimal digits are neither blanks nor bars nor signs. -/
theorem hexDigit_plain : ∀ digit < 16, Text.isBlank (Text.hexDigit digit) = false ∧
    Text.hexDigit digit ≠ '|' ∧ Text.hexDigit digit ≠ '+' := by
  decide

theorem isWord_hexText (n : Nat) : Text.IsWord '|' ('0' :: 'x' :: Text.hexText n) := by
  refine ⟨List.cons_ne_nil _ _, fun c hc => ?_, fun hmem => ?_⟩
  · rw [List.mem_cons, List.mem_cons] at hc
    rcases hc with rfl | rfl | hdigit
    · decide
    · decide
    · obtain ⟨digit, hlt, rfl⟩ := Text.mem_hexText hdigit
      exact (hexDigit_plain digit hlt).1
  · rw [List.mem_cons, List.mem_cons] at hmem
    rcases hmem with hzero | hx | hdigit
    · cases hzero
    · cases hx
    · obtain ⟨digit, hlt, heq⟩ := Text.mem_hexText hdigit
      exact (hexDigit_plain digit hlt).2.1 heq.symm

/-- Any sixteen bits are read back from their number. -/
theorem part?_hexText (flags : Flags) :
    part? ('0' :: 'x' :: Text.hexText flags.bits.toNat) = some flags := by
  have hhex : ofHex? (Text.hexText flags.bits.toNat) = some flags := by
    have hlt := flags.bits.toNat_lt
    rw [ofHex?, Text.hexNumber?_hexText]
    simp only [Option.bind_eq_bind, Option.bind_some]
    rw [if_pos (by omega), UInt16.ofNat_toNat]
  -- The first digit is no sign.
  cases hdigits : Text.hexText flags.bits.toNat with
  | nil => exact absurd hdigits (Text.hexText_ne_nil _)
  | cons first rest =>
    obtain ⟨digit, hlt, rfl⟩ :=
      Text.mem_hexText (n := flags.bits.toNat) (hdigits ▸ List.mem_cons_self)
    rw [part?, ← hdigits, hhex]
    rintro _ heq
    exact (hexDigit_plain digit hlt).2.2 (List.cons_eq_cons.mp heq).1

/-- Every part of flags is a word. -/
theorem isWord_of_mem_parts {flags : Flags} {part : String} (h : part ∈ flags.parts) :
    Text.IsWord '|' part.toList := by
  rcases List.mem_append.mp h with hnamed | hunnamed
  · obtain ⟨flag, hflag, rfl⟩ := List.mem_map.mp hnamed
    exact isWord_named flag (List.mem_of_mem_filter hflag)
  · split at hunnamed
    · cases hunnamed
    · rw [List.mem_singleton] at hunnamed
      subst hunnamed
      rw [String.toList_append, String.toList_ofList, String.toList_ofList]
      exact isWord_hexText _

/-- Every part of flags is read as what it stands for. -/
theorem forall₂_part?_parts (flags : Flags) :
    List.Forall₂ (fun part value => part? part.toList = some value) flags.parts flags.values := by
  apply List.rel_append
  · rw [List.forall₂_map_left_iff, List.forall₂_map_right_iff, List.forall₂_same]
    exact fun flag hflag => part?_named flag (List.mem_of_mem_filter hflag)
  · split
    · exact .nil
    · refine .cons ?_ .nil
      rw [String.toList_append, String.toList_ofList, String.toList_ofList]
      exact part?_hexText _

/-- Flags are read back from their text. -/
theorem ofText?_text (flags : Flags) : ofText? flags.text = some flags := by
  have hread := forall₂_part?_parts flags
  have hunion := foldl_union_values flags
  have hglue : " | ".toList = [' ', '|', ' '] := rfl
  rw [ofText?, text, Text.toList_joinWith " | " hglue]
  cases hparts : flags.parts with
  | nil =>
    -- Flags without any part are empty.
    rw [hparts, List.forall₂_nil_left_iff] at hread
    rw [hread] at hunion
    rw [← hunion]
    rfl
  | cons first rest =>
    have hne : (first :: rest).map String.toList ≠ [] := List.cons_ne_nil _ _
    have hword : ∀ word ∈ (first :: rest).map String.toList, Text.IsWord '|' word := by
      intro word hmem
      obtain ⟨part, hpart, rfl⟩ := List.mem_map.mp hmem
      exact isWord_of_mem_parts (hparts ▸ hpart)
    obtain ⟨hnonempty, htrim⟩ := Text.trim_joined hne hword
    have hpieces : (Text.splitOn '|' (Text.joined '|' ((first :: rest).map String.toList))).mapM
        (fun piece => part? (Text.trim piece)) = some flags.values := by
      have hcut := Text.map_trim_splitOn_joined (by decide) hne hword
      rw [hparts] at hread
      have hmap := List.mapM_map (f := Text.trim) (g := part?)
        (l := Text.splitOn '|' (Text.joined '|' ((first :: rest).map String.toList)))
      rw [hcut, List.mapM_map] at hmap
      exact hmap.symm.trans (mapM_eq_some_iff.mpr hread)
    rw [htrim]
    split
    · contradiction
    · rw [hpieces]
      exact congrArg some hunion

end DeclMerge.Flags
