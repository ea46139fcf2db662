import DeclMerge.Json.Printer
import DeclMerge.Json.Readable
import DeclMerge.Json.Reader
import Mathlib.Tactic.SplitIfs

/-!
# Texts of JSON values

A value has many texts, which differ in the gaps between their tokens. Reading finds the value of each
of them, however it is laid out, as long as no more arrays and objects are open at once than may be.
Both printed texts are among them. Values with numbers in them are left out here.

## Main definitions

* `Json.Gap` — what may stand between two tokens
* `Json.TextOf` — the texts of a value
* `Json.isTextual` — whether a value is made of strings, truth values and nulls

## Main results

* `Json.TextOf.ofText?_eq` — each text of a value is read as the value
* `Json.textOf_compactChars`, `Json.textOf_indentedChars` — the printed texts are texts of the value
* `Json.ofText?_printed` — printed values are read back
-/

namespace DeclMerge.Json

/-! ### Gaps -/

/-- What may stand between two tokens. -/
structure Gap where
  blanks : List Char
  isGap_of_mem : ∀ c ∈ blanks, isGap c = true

namespace Gap

/-- Nothing between two tokens. -/
def none : Gap := ⟨[], fun _ hc => absurd hc List.not_mem_nil⟩

/-- A single space. -/
def space : Gap where
  blanks := [' ']
  isGap_of_mem c hc := by
    rw [List.mem_singleton.mp hc]
    rfl

/-- A line break and the indentation of a level. -/
def line (level : Nat) : Gap where
  blanks := lineBreak level
  isGap_of_mem c hc := by
    rcases List.mem_cons.mp hc with rfl | hspace
    · rfl
    · rw [List.eq_of_mem_replicate hspace]
      rfl

end Gap

theorem skipGap_cons {c : Char} (h : isGap c = false) (cs : List Char) :
    skipGap (c :: cs) = c :: cs := by
  rw [skipGap, List.dropWhile_cons_of_neg (by simp [h])]

/-- What stands behind a gap, if it does not go on with one. -/
theorem skipGap_append (gap : Gap) {c : Char} (h : isGap c = false) (cs : List Char) :
    skipGap (gap.blanks ++ c :: cs) = c :: cs := by
  rw [skipGap, List.dropWhile_append_of_pos gap.isGap_of_mem]
  exact skipGap_cons h cs

/-! ### Strings -/

theorem hexUnit?_hexDigit {n : Nat} (h : n < 256) :
    hexUnit? '0' '0' (Text.hexDigit (n / 16)) (Text.hexDigit (n % 16)) = some n := by
  have hzero : Text.hexValue? '0' = some 0 := by decide
  have hhigh := Text.hexValue?_hexDigit (n / 16) (by omega)
  have hlow := Text.hexValue?_hexDigit (n % 16) (by omega)
  simp [hexUnit?, Text.hexNumber?, hzero, hhigh, hlow]
  omega

/-- A number below all surrogates is read as its character. -/
theorem readString_unit {a b c d : Char} {unit : Nat} (h : hexUnit? a b c d = some unit)
    (hunit : unit < 0xD800) (done rest : List Char) :
    readString done ('\\' :: 'u' :: a :: b :: c :: d :: rest) =
      readString (Char.ofNat unit :: done) rest := by
  have hhigh : isHighSurrogate unit = false := by
    rw [isHighSurrogate, decide_eq_false (by omega), Bool.false_and]
  have hlow : isLowSurrogate unit = false := by
    rw [isLowSurrogate, decide_eq_false (by omega), Bool.false_and]
  rw [readString, h]
  simp [hhigh, hlow]

/-- A character is written as an escape of one letter, as its number or as itself. -/
theorem escaped_cases (c : Char) :
    (∃ letter, escaped c = ['\\', letter] ∧ simpleEscape? letter = some c) ∨
    (c < ' ' ∧ escaped c = '\\' :: 'u' :: '0' :: '0' ::
      [Text.hexDigit (c.toNat / 16), Text.hexDigit (c.toNat % 16)]) ∨
    (c ≠ '"' ∧ c ≠ '\\' ∧ ¬ c < ' ' ∧ escaped c = [c]) := by
  unfold escaped
  split_ifs with hquote hbackslash hline hreturn htab hback hfeed hcontrol
  -- The first seven cases are the characters that have a letter.
  iterate 7 exact .inl ⟨_, rfl, by subst c; rfl⟩
  · exact .inr (.inl ⟨hcontrol, rfl⟩)
  · exact .inr (.inr ⟨hquote, hbackslash, hcontrol, rfl⟩)

/-- A character that is written is read back. -/
theorem readString_escaped (c : Char) (done rest : List Char) :
    readString done (escaped c ++ rest) = readString (c :: done) rest := by
  rcases escaped_cases c with ⟨letter, heq, hletter⟩ | ⟨hcontrol, heq⟩ | ⟨hquote, hback, hplain, heq⟩
  · have hne : letter ≠ 'u' := by
      rintro rfl
      cases hletter
    -- A letter that stands for a character does not begin a number.
    rw [heq, List.cons_append, List.singleton_append, readString, hletter]
    exact fun _ _ _ _ _ h _ => hne h
  · have hlt : c.toNat < 32 := hcontrol
    rw [heq]
    exact (readString_unit (hexUnit?_hexDigit (by omega)) (by omega) done rest).trans
      (by rw [Char.ofNat_toNat])
  · rw [heq, List.singleton_append, readString, if_neg (by simp [hback, hplain])]
    · exact hquote
    · exact fun _ _ _ _ _ h _ => hback h
    · exact fun _ _ h _ => hback h

/-- A string is read back up to its closing quote. -/
theorem readString_flatMap_escaped (cs done rest : List Char) :
    readString done (cs.flatMap escaped ++ '"' :: rest) = some (done.reverse ++ cs, rest) := by
  induction cs generalizing done with
  | nil => rw [List.flatMap_nil, List.nil_append, List.append_nil, readString]
  | cons c cs ih =>
    rw [List.flatMap_cons, List.append_assoc, readString_escaped, ih, List.reverse_cons,
      List.append_assoc, List.singleton_append]

/-- What stands behind the opening quote of a written string. -/
theorem quoted_append (value : String) (rest : List Char) :
    quoted value ++ rest = '"' :: (value.toList.flatMap escaped ++ '"' :: rest) := by
  simp [quoted]

/-! ### Texts of a value -/

mutual
/-- The characters are a text of the value. Between its tokens there may be gaps. -/
inductive TextOf : Json → List Char → Prop
  | null : TextOf .null ['n', 'u', 'l', 'l']
  | true : TextOf (.bool true) ['t', 'r', 'u', 'e']
  | false : TextOf (.bool false) ['f', 'a', 'l', 's', 'e']
  | string (value : String) : TextOf (.string value) (quoted value)
  | emptyArray (gap : Gap) : TextOf (.array []) ('[' :: (gap.blanks ++ [']']))
  | array {items : List Json} {cs : List Char} (h : ItemsTextOf items cs) :
      TextOf (.array items) ('[' :: cs)
  | emptyObject (gap : Gap) : TextOf (.object []) ('\x7b' :: (gap.blanks ++ ['\x7d']))
  | object {members : List (String × Json)} {cs : List Char} (h : MembersTextOf members cs) :
      TextOf (.object members) ('\x7b' :: cs)
/-- The characters are a text of the items up to the closing bracket. -/
inductive ItemsTextOf : List Json → List Char → Prop
  | last {item : Json} {cs : List Char} (before after : Gap) (h : TextOf item cs) :
      ItemsTextOf [item] (before.blanks ++ (cs ++ (after.blanks ++ [']'])))
  | more {item : Json} {items : List Json} {cs rest : List Char} (before after : Gap)
      (h : TextOf item cs) (hrest : ItemsTextOf items rest) :
      ItemsTextOf (item :: items) (before.blanks ++ (cs ++ (after.blanks ++ ',' :: rest)))
/-- The characters are a text of the members up to the closing brace. -/
inductive MembersTextOf : List (String × Json) → List Char → Prop
  | last {value : Json} {cs : List Char} (key : String) (front behind before after : Gap)
      (h : TextOf value cs) :
      MembersTextOf [(key, value)]
        (front.blanks ++ (quoted key ++ (behind.blanks ++ ':' ::
          (before.blanks ++ (cs ++ (after.blanks ++ ['\x7d']))))))
  | more {value : Json} {members : List (String × Json)} {cs rest : List Char} (key : String)
      (front behind before after : Gap) (h : TextOf value cs)
      (hrest : MembersTextOf members rest) :
      MembersTextOf ((key, value) :: members)
        (front.blanks ++ (quoted key ++ (behind.blanks ++ ':' ::
          (before.blanks ++ (cs ++ (after.blanks ++ ',' :: rest))))))
end

/-- A text of a value begins with a character that neither is a gap nor closes an array. -/
theorem TextOf.exists_head {json : Json} {cs : List Char} (h : TextOf json cs) :
    ∃ c rest, cs = c :: rest ∧ isGap c = Bool.false ∧ c ≠ ']' := by
  cases h <;> exact ⟨_, _, rfl, by decide, by decide⟩

/-- A text of items does not close its array at once. -/
theorem ItemsTextOf.head?_skipGap_ne {items : List Json} {cs : List Char} (h : ItemsTextOf items cs)
    (rest : List Char) : (skipGap (cs ++ rest)).head? ≠ some ']' := by
  cases h with
  | last before after h | more before after h hrest =>
    obtain ⟨c, tail, rfl, hgap, hne⟩ := h.exists_head
    rw [List.append_assoc, List.cons_append, List.cons_append, skipGap_append before hgap]
    exact fun heq => hne (Option.some.inj heq)

/-- A text of members does not close its object at once. -/
theorem MembersTextOf.head?_skipGap_ne {members : List (String × Json)} {cs : List Char}
    (h : MembersTextOf members cs) (rest : List Char) :
    (skipGap (cs ++ rest)).head? ≠ some '\x7d' := by
  cases h with
  | last key front behind before after h | more key front behind before after h hrest =>
    rw [List.append_assoc, quoted_append, List.cons_append, skipGap_append front rfl]
    exact nofun

/-! ### Steps of reading -/

section Steps

variable {steps levels : Nat} {cs rest after : List Char}

theorem readValue_string {text : List Char} (hopen : skipGap cs = '"' :: rest)
    (htext : readString [] rest = some (text, after)) :
    readValue (steps + 1) levels cs = some (.string (String.ofList text), after) := by
  rw [readValue, hopen]
  simp only [htext]

theorem readValue_emptyArray (hlevels : 0 < levels) (hopen : skipGap cs = '[' :: rest)
    (hclose : skipGap rest = ']' :: after) :
    readValue (steps + 1) levels cs = some (.array [], after) := by
  obtain ⟨levels, rfl⟩ := Nat.exists_eq_succ_of_ne_zero (Nat.ne_of_gt hlevels)
  rw [readValue, hopen]
  simp only [hclose]

theorem readValue_array (hlevels : 0 < levels) (hopen : skipGap cs = '[' :: rest)
    (hitems : (skipGap rest).head? ≠ some ']') :
    readValue (steps + 1) levels cs = readItems steps (levels - 1) [] rest := by
  obtain ⟨levels, rfl⟩ := Nat.exists_eq_succ_of_ne_zero (Nat.ne_of_gt hlevels)
  rw [readValue, hopen]
  simp only
  split
  · rename_i hclose
    exact absurd (congrArg List.head? hclose) hitems
  · rfl

theorem readValue_emptyObject (hlevels : 0 < levels) (hopen : skipGap cs = '\x7b' :: rest)
    (hclose : skipGap rest = '\x7d' :: after) :
    readValue (steps + 1) levels cs = some (.object [], after) := by
  obtain ⟨levels, rfl⟩ := Nat.exists_eq_succ_of_ne_zero (Nat.ne_of_gt hlevels)
  rw [readValue, hopen]
  simp only [hclose]

theorem readValue_object {read : Json × List Char} (hlevels : 0 < levels)
    (hopen : skipGap cs = '\x7b' :: rest) (hmembers : (skipGap rest).head? ≠ some '\x7d')
    (hread : readMembers steps (levels - 1) [] rest = some read) :
    readValue (steps + 1) levels cs = some read := by
  obtain ⟨levels, rfl⟩ := Nat.exists_eq_succ_of_ne_zero (Nat.ne_of_gt hlevels)
  rw [Nat.succ_sub_one] at hread
  rw [readValue, hopen]
  simp only [hread]
  split
  · rename_i hclose
    exact absurd (congrArg List.head? hclose) hmembers
  · rfl

theorem readItems_last {item : Json} (done : List Json)
    (hitem : readValue steps levels cs = some (item, rest)) (hclose : skipGap rest = ']' :: after) :
    readItems (steps + 1) levels done cs = some (.array (item :: done).reverse, after) := by
  rw [readItems, hitem]
  simp only [hclose]

theorem readItems_more {item : Json} (done : List Json)
    (hitem : readValue steps levels cs = some (item, rest)) (hcomma : skipGap rest = ',' :: after) :
    readItems (steps + 1) levels done cs = readItems steps levels (item :: done) after := by
  rw [readItems, hitem]
  simp only [hcomma]

variable {key : List Char} {value : Json} {afterKey text : List Char}

theorem readMembers_last (done : List (String × Json)) (hopen : skipGap cs = '"' :: rest)
    (hkey : readString [] rest = some (key, afterKey)) (hcolon : skipGap afterKey = ':' :: text)
    (hvalue : readValue steps levels text = some (value, after))
    {rest' : List Char} (hclose : skipGap after = '\x7d' :: rest') :
    readMembers (steps + 1) levels done cs =
      some (.object ((String.ofList key, value) :: done).reverse, rest') := by
  rw [readMembers, hopen]
  simp only [hkey, hcolon, hvalue, hclose]

theorem readMembers_more (done : List (String × Json)) (hopen : skipGap cs = '"' :: rest)
    (hkey : readString [] rest = some (key, afterKey)) (hcolon : skipGap afterKey = ':' :: text)
    (hvalue : readValue steps levels text = some (value, after))
    {rest' : List Char} (hcomma : skipGap after = ',' :: rest') :
    readMembers (steps + 1) levels done cs =
      readMembers steps levels ((String.ofList key, value) :: done) rest' := by
  rw [readMembers, hopen]
  simp only [hkey, hcolon, hvalue, hcomma]

end Steps

/-! ### Reading -/

-- The induction is on the text. Reading a value takes one step before it enters an array or an object
-- and one for each item or member, and each of these has a bracket or a comma to pay for it.
mutual
/-- A text is read as its value, if there is a step for each character. -/
theorem TextOf.readValue_eq {json : Json} {cs : List Char} (h : TextOf json cs)
    {steps levels : Nat} (hsteps : cs.length ≤ steps) (hlevels : json.nesting ≤ levels)
    (gap : Gap) (rest : List Char) :
    readValue steps levels (gap.blanks ++ (cs ++ rest)) = some (json, rest) := by
  obtain ⟨c, tail, hcs, hgap, -⟩ := h.exists_head
  have hskip : skipGap (gap.blanks ++ (cs ++ rest)) = cs ++ rest := by
    rw [hcs, List.cons_append, skipGap_append gap hgap]
  cases steps with
  | zero =>
    -- No text is empty.
    rw [hcs] at hsteps
    cases hsteps
  | succ steps =>
    cases h with
    | null =>
      rw [readValue, hskip]
      rfl
    | true =>
      rw [readValue, hskip]
      rfl
    | false =>
      rw [readValue, hskip]
      rfl
    | string value =>
      have htext := readString_flatMap_escaped value.toList [] rest
      rw [readValue_string (hskip.trans (quoted_append value rest)) htext, List.reverse_nil,
        List.nil_append, String.ofList_toList]
    | emptyArray inner =>
      -- One level is left, because an empty array takes one, too.
      have hclose : skipGap (inner.blanks ++ [']'] ++ rest) = ']' :: rest := by
        rw [List.append_assoc]
        exact skipGap_append inner rfl rest
      exact readValue_emptyArray hlevels hskip hclose
    | array hitems =>
      rw [nesting] at hlevels
      rw [List.length_cons] at hsteps
      rw [readValue_array (by omega) hskip (hitems.head?_skipGap_ne rest)]
      exact hitems.readItems_eq (by omega) (by omega) [] rest
    | emptyObject inner =>
      have hclose : skipGap (inner.blanks ++ ['\x7d'] ++ rest) = '\x7d' :: rest := by
        rw [List.append_assoc]
        exact skipGap_append inner rfl rest
      exact readValue_emptyObject hlevels hskip hclose
    | object hmembers =>
      rw [nesting] at hlevels
      rw [List.length_cons] at hsteps
      exact readValue_object (by omega) hskip (hmembers.head?_skipGap_ne rest)
        (hmembers.readMembers_eq (by omega) (by omega) [] rest)
/-- A text of items is read as the array of the items, behind those that are done. -/
theorem ItemsTextOf.readItems_eq {items : List Json} {cs : List Char} (h : ItemsTextOf items cs)
    {steps levels : Nat} (hsteps : cs.length ≤ steps) (hlevels : nestingItems items ≤ levels)
    (done : List Json) (rest : List Char) :
    readItems steps levels done (cs ++ rest) = some (.array (done.reverse ++ items), rest) := by
  cases steps with
  | zero => cases h <;> simp at hsteps
  | succ steps =>
    cases h with
    | @last item cs before after h =>
      simp only [nestingItems] at hlevels
      simp only [List.length_append, List.length_singleton] at hsteps
      have hlong : cs.length ≤ steps := by omega
      have hdeep : item.nesting ≤ levels := by omega
      have hitem := h.readValue_eq hlong hdeep before (after.blanks ++ (']' :: rest))
      simp only [List.append_assoc, List.singleton_append]
      rw [readItems_last done hitem (skipGap_append after rfl rest), List.reverse_cons]
    | @more item items cs cs' before after h hrest =>
      simp only [nestingItems] at hlevels
      simp only [List.length_append, List.length_cons] at hsteps
      have hlong : cs.length ≤ steps := by omega
      have hdeep : item.nesting ≤ levels := by omega
      have hitem := h.readValue_eq hlong hdeep before (after.blanks ++ (',' :: (cs' ++ rest)))
      simp only [List.append_assoc, List.cons_append]
      rw [readItems_more done hitem (skipGap_append after rfl _),
        hrest.readItems_eq (by omega) (by omega), List.reverse_cons, List.append_assoc,
        List.singleton_append]
/-- A text of members is read as the object of the members, behind those that are done. -/
theorem MembersTextOf.readMembers_eq {members : List (String × Json)} {cs : List Char}
    (h : MembersTextOf members cs) {steps levels : Nat} (hsteps : cs.length ≤ steps)
    (hlevels : nestingMembers members ≤ levels) (done : List (String × Json)) (rest : List Char) :
    readMembers steps levels done (cs ++ rest) =
      some (.object (done.reverse ++ members), rest) := by
  cases steps with
  | zero => cases h <;> simp [quoted] at hsteps
  | succ steps =>
    cases h with
    | @last value cs key front behind before after h =>
      simp only [nestingMembers] at hlevels
      simp only [List.length_append, List.length_cons] at hsteps
      have hlong : cs.length ≤ steps := by omega
      have hdeep : value.nesting ≤ levels := by omega
      have hvalue := h.readValue_eq hlong hdeep before (after.blanks ++ ('\x7d' :: rest))
      simp only [List.append_assoc, List.cons_append, quoted_append, List.nil_append]
      rw [readMembers_last done (skipGap_append front rfl _) (readString_flatMap_escaped _ _ _)
        (skipGap_append behind rfl _) hvalue (skipGap_append after rfl rest), List.reverse_cons,
        List.reverse_nil, List.nil_append, String.ofList_toList]
    | @more value members cs cs' key front behind before after h hrest =>
      simp only [nestingMembers] at hlevels
      simp only [List.length_append, List.length_cons] at hsteps
      have hlong : cs.length ≤ steps := by omega
      have hdeep : value.nesting ≤ levels := by omega
      have hvalue := h.readValue_eq hlong hdeep before (after.blanks ++ (',' :: (cs' ++ rest)))
      simp only [List.append_assoc, List.cons_append, quoted_append]
      rw [readMembers_more done (skipGap_append front rfl _) (readString_flatMap_escaped _ _ _)
        (skipGap_append behind rfl _) hvalue (skipGap_append after rfl _),
        hrest.readMembers_eq (by omega) (by omega), List.reverse_cons, List.reverse_nil,
        List.nil_append, String.ofList_toList, List.append_assoc, List.singleton_append]
end

/-- The value of a document is found in each of its texts. -/
theorem TextOf.ofText?_eq {json : Json} {cs : List Char} (h : TextOf json cs)
    (hnesting : json.nesting ≤ maxNesting) : ofText? (String.ofList cs) = some json := by
  have hlong : cs.length ≤ 2 * cs.length + 2 := by omega
  have hread := h.readValue_eq hlong hnesting Gap.none []
  rw [List.append_nil] at hread
  have hwhole : readValue (2 * cs.length + 2) maxNesting cs = some (json, []) := hread
  rw [ofText?, ofTextWithin?, String.toList_ofList, hwhole]
  rfl

/-! ### Printing -/

mutual
/-- A value without numbers, all of which has been read. -/
def isTextual : Json → Bool
  | .array items => isTextualItems items
  | .object members => isTextualMembers members
  | .number _ | .unreadable _ => false
  | .null | .bool _ | .string _ => true
/-- Every item is textual. -/
def isTextualItems : List Json → Bool
  | [] => true
  | item :: items => item.isTextual && isTextualItems items
/-- The value of every member is textual. -/
def isTextualMembers : List (String × Json) → Bool
  | [] => true
  | (_, value) :: members => value.isTextual && isTextualMembers members
end

mutual
/-- Only numbers can be too large to be taken in. -/
theorem isReadable_of_isTextual (json : Json) (h : json.isTextual = true) :
    json.isReadable = true := by
  match json with
  | .null | .bool _ | .string _ => rfl
  | .array items => exact isReadableItems_of_isTextualItems items h
  | .object members => exact isReadableMembers_of_isTextualMembers members h
theorem isReadableItems_of_isTextualItems (items : List Json) (h : isTextualItems items = true) :
    isReadableItems items = true := by
  match items with
  | [] => rfl
  | item :: items =>
    obtain ⟨hitem, hitems⟩ := Bool.and_eq_true_iff.mp h
    exact Bool.and_eq_true_iff.mpr
      ⟨isReadable_of_isTextual item hitem, isReadableItems_of_isTextualItems items hitems⟩
theorem isReadableMembers_of_isTextualMembers (members : List (String × Json))
    (h : isTextualMembers members = true) : isReadableMembers members = true := by
  match members with
  | [] => rfl
  | (_, value) :: members =>
    obtain ⟨hvalue, hmembers⟩ := Bool.and_eq_true_iff.mp h
    exact Bool.and_eq_true_iff.mpr
      ⟨isReadable_of_isTextual value hvalue, isReadableMembers_of_isTextualMembers members hmembers⟩
end

theorem isTextualItems_map {α : Type} {write : α → Json} (as : List α)
    (h : ∀ a ∈ as, (write a).isTextual = true) : isTextualItems (as.map write) = true := by
  induction as with
  | nil => rfl
  | cons a as ih =>
    rw [List.map_cons, isTextualItems, h a List.mem_cons_self,
      ih fun b hb => h b (List.mem_cons_of_mem a hb)]
    rfl

theorem isTextualMembers_append (members members' : List (String × Json)) :
    isTextualMembers (members ++ members') =
      (isTextualMembers members && isTextualMembers members') := by
  induction members with
  | nil => rfl
  | cons member members ih =>
    rw [List.cons_append, isTextualMembers, isTextualMembers, ih, Bool.and_assoc]

mutual
/-- The compact text has no gap at all. -/
theorem textOf_compactChars (json : Json) (h : json.isTextual = true) :
    TextOf json json.compactChars := by
  match json with
  | .null => exact .null
  | .bool true => exact .true
  | .bool false => exact .false
  | .string value => exact .string value
  | .array [] => exact .emptyArray .none
  | .array (item :: items) =>
    obtain ⟨hitem, hitems⟩ := Bool.and_eq_true_iff.mp h
    exact .array (itemsTextOf_compactItems items (textOf_compactChars item hitem) hitems)
  | .object [] => exact .emptyObject .none
  | .object ((key, value) :: members) =>
    obtain ⟨hvalue, hmembers⟩ := Bool.and_eq_true_iff.mp h
    exact .object
      (membersTextOf_compactMembers key members (textOf_compactChars value hvalue) hmembers)
theorem itemsTextOf_compactItems {item : Json} {cs : List Char} (items : List Json)
    (hitem : TextOf item cs) (h : isTextualItems items = true) :
    ItemsTextOf (item :: items) (cs ++ compactItems items) := by
  match items with
  | [] => exact .last .none .none hitem
  | next :: items =>
    obtain ⟨hnext, hitems⟩ := Bool.and_eq_true_iff.mp h
    exact .more .none .none hitem
      (itemsTextOf_compactItems items (textOf_compactChars next hnext) hitems)
theorem membersTextOf_compactMembers {value : Json} {cs : List Char} (key : String)
    (members : List (String × Json)) (hvalue : TextOf value cs)
    (h : isTextualMembers members = true) :
    MembersTextOf ((key, value) :: members) (quoted key ++ ':' :: (cs ++ compactMembers members)) := by
  match members with
  | [] => exact .last key .none .none .none .none hvalue
  | (key', next) :: members =>
    obtain ⟨hnext, hmembers⟩ := Bool.and_eq_true_iff.mp h
    exact .more key .none .none .none .none hvalue
      (membersTextOf_compactMembers key' members (textOf_compactChars next hnext) hmembers)
end

mutual
/-- The indented text has gaps before items, members and closing brackets, and behind colons. -/
theorem textOf_indentedChars (level : Nat) (json : Json) (h : json.isTextual = true) :
    TextOf json (json.indentedChars level) := by
  match json with
  | .null => exact .null
  | .bool true => exact .true
  | .bool false => exact .false
  | .string value => exact .string value
  | .array [] => exact .emptyArray .none
  | .array (item :: items) =>
    -- The first item stands on a line of its own, as the others do.
    obtain ⟨hitem, hitems⟩ := Bool.and_eq_true_iff.mp h
    have hall := itemsTextOf_indentedItems level items
      (textOf_indentedChars (level + 1) item hitem) hitems
    rw [indentedChars, List.append_assoc]
    exact .array hall
  | .object [] => exact .emptyObject .none
  | .object ((key, value) :: members) =>
    obtain ⟨hvalue, hmembers⟩ := Bool.and_eq_true_iff.mp h
    have hall := membersTextOf_indentedMembers level key members
      (textOf_indentedChars (level + 1) value hvalue) hmembers
    rw [indentedChars, List.append_assoc]
    exact .object hall
theorem itemsTextOf_indentedItems {item : Json} {cs : List Char} (level : Nat) (items : List Json)
    (hitem : TextOf item cs) (h : isTextualItems items = true) :
    ItemsTextOf (item :: items) (lineBreak (level + 1) ++ (cs ++ indentedItems level items)) := by
  match items with
  | [] => exact .last (.line (level + 1)) (.line level) hitem
  | next :: items =>
    obtain ⟨hnext, hitems⟩ := Bool.and_eq_true_iff.mp h
    have hrest := itemsTextOf_indentedItems level items
      (textOf_indentedChars (level + 1) next hnext) hitems
    rw [indentedItems, List.append_assoc]
    exact .more (.line (level + 1)) .none hitem hrest
theorem membersTextOf_indentedMembers {value : Json} {cs : List Char} (level : Nat) (key : String)
    (members : List (String × Json)) (hvalue : TextOf value cs)
    (h : isTextualMembers members = true) :
    MembersTextOf ((key, value) :: members) (lineBreak (level + 1) ++
      (quoted key ++ ':' :: ' ' :: (cs ++ indentedMembers level members))) := by
  match members with
  | [] => exact .last key (.line (level + 1)) .none .space (.line level) hvalue
  | (key', next) :: members =>
    obtain ⟨hnext, hmembers⟩ := Bool.and_eq_true_iff.mp h
    have hrest := membersTextOf_indentedMembers level key' members
      (textOf_indentedChars (level + 1) next hnext) hmembers
    rw [indentedMembers, List.append_assoc]
    exact .more key (.line (level + 1)) .none .space .none hvalue hrest
end

/-- A printed value is read back, from its compact and from its indented text. -/
theorem ofText?_printed {json : Json} (htextual : json.isTextual = true)
    (hnesting : json.nesting ≤ maxNesting) :
    ofText? json.compact = some json ∧ ofText? json.indented = some json :=
  ⟨(textOf_compactChars json htextual).ofText?_eq hnesting,
    (textOf_indentedChars 0 json htextual).ofText?_eq hnesting⟩

end DeclMerge.Json
