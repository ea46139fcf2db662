import DeclMerge.Text.Blank
import DeclMerge.Text.Hex
import DeclMerge.Text.Split
import Mathlib.Data.List.Basic

/-!
# Texts put together and taken apart

Words that are joined by a separator with blanks around it are found again by cutting the text at the
separator and trimming the pieces. A number written in hexadecimal digits is read back.

## Main definitions

* `Text.IsWord` — a text that is neither cut nor trimmed
* `Text.joined` — words with a separator between any two neighbours

## Main results

* `Text.map_trim_splitOn_joined` — the words of a joined text
* `Text.hexNumber?_hexText` — the number of a hexadecimal text
-/

namespace DeclMerge.Text

variable {sep : Char} {word cs : List Char} {words : List (List Char)}

/-- A text that is not empty and has neither blanks nor separators in it. -/
structure IsWord (sep : Char) (word : List Char) : Prop where
  ne_nil : word ≠ []
  not_isBlank : ∀ c ∈ word, isBlank c = false
  not_mem : sep ∉ word

/-! ### Trimming -/

theorem isBlank_of_mem_nil : ∀ c ∈ ([] : List Char), isBlank c = true :=
  fun _ hc => absurd hc List.not_mem_nil

theorem trimFront_of_head (h : ∀ c ∈ cs.head?, isBlank c = false) : trimFront cs = cs := by
  cases cs with
  | nil => rfl
  | cons c cs => rw [trimFront, List.dropWhile_cons_of_neg (by simp [h c rfl])]

theorem trimFront_append {blanks : List Char} (hblanks : ∀ c ∈ blanks, isBlank c = true)
    (h : ∀ c ∈ cs.head?, isBlank c = false) : trimFront (blanks ++ cs) = cs := by
  rw [trimFront, List.dropWhile_append_of_pos hblanks]
  exact trimFront_of_head h

/-- Blanks around a text that begins and ends with other characters are removed, and no others. -/
theorem trim_append {blanks blanks' : List Char} (hblanks : ∀ c ∈ blanks, isBlank c = true)
    (hblanks' : ∀ c ∈ blanks', isBlank c = true) (hne : cs ≠ [])
    (hhead : ∀ c ∈ cs.head?, isBlank c = false) (hlast : ∀ c ∈ cs.getLast?, isBlank c = false) :
    trim (blanks ++ (cs ++ blanks')) = cs := by
  have hfront : trimFront (blanks ++ (cs ++ blanks')) = cs ++ blanks' := by
    apply trimFront_append hblanks
    rwa [List.head?_append_of_ne_nil _ hne]
  have hback : trimFront (cs ++ blanks').reverse = cs.reverse := by
    rw [List.reverse_append]
    apply trimFront_append
    · exact fun c hc => hblanks' c (List.mem_reverse.mp hc)
    · rwa [List.head?_reverse]
  rw [trim, hfront, hback, List.reverse_reverse]

theorem trim_append_of_isWord {blanks blanks' : List Char}
    (hblanks : ∀ c ∈ blanks, isBlank c = true) (hblanks' : ∀ c ∈ blanks', isBlank c = true)
    (h : IsWord sep word) : trim (blanks ++ (word ++ blanks')) = word :=
  trim_append hblanks hblanks' h.ne_nil
    (fun c hc => h.not_isBlank c (List.mem_of_mem_head? hc))
    fun c hc => h.not_isBlank c (List.mem_of_mem_getLast? hc)

/-! ### Cutting -/

theorem splitOn_of_not_mem (h : sep ∉ cs) : splitOn sep cs = [cs] := by
  induction cs with
  | nil => rfl
  | cons c cs ih =>
    rw [List.mem_cons, not_or] at h
    rw [splitOn, if_neg (Ne.symm h.1), ih h.2]

theorem splitOn_ne_nil (cs : List Char) : splitOn sep cs ≠ [] := by
  cases cs with
  | nil => simp [splitOn]
  | cons c cs =>
    rw [splitOn]
    split
    · exact List.cons_ne_nil _ _
    · split <;> exact List.cons_ne_nil _ _

/-- The pieces before a separator are followed by those behind it. -/
theorem splitOn_append (cs rest : List Char) :
    splitOn sep (cs ++ sep :: rest) = splitOn sep cs ++ splitOn sep rest := by
  induction cs with
  | nil => simp [splitOn]
  | cons c cs ih =>
    rw [List.cons_append, splitOn, splitOn, ih]
    by_cases hc : c = sep
    · rw [if_pos hc, if_pos hc, List.cons_append]
    · rw [if_neg hc, if_neg hc]
      have hne : splitOn sep cs ≠ [] := splitOn_ne_nil cs
      obtain ⟨piece, pieces, hcs⟩ := List.exists_cons_of_ne_nil hne
      rw [hcs]
      rfl

/-! ### Joining -/

/-- Words with a separator between any two neighbours, which has a blank on each side. -/
def joined (sep : Char) : List (List Char) → List Char
  | [] => []
  | [word] => word
  | word :: words => word ++ ' ' :: sep :: ' ' :: joined sep words

theorem joined_cons_cons (word next : List Char) (words : List (List Char)) :
    joined sep (word :: next :: words) = word ++ ' ' :: sep :: ' ' :: joined sep (next :: words) :=
  rfl

theorem toList_joinWith (glue : String) (h : glue.toList = [' ', sep, ' ']) (pieces : List String) :
    (joinWith glue pieces).toList = joined sep (pieces.map String.toList) := by
  induction pieces with
  | nil => rfl
  | cons piece pieces ih =>
    cases pieces with
    | nil => rfl
    | cons next pieces =>
      rw [joinWith, String.toList_append, String.toList_append, ih, h, List.append_assoc]
      · rfl
      · exact nofun

/-- A joined text is not empty, and begins and ends with a character of a word. -/
theorem trim_joined (hne : words ≠ []) (h : ∀ word ∈ words, IsWord sep word) :
    joined sep words ≠ [] ∧ trim (joined sep words) = joined sep words := by
  suffices hends : joined sep words ≠ [] ∧
      (∀ c ∈ (joined sep words).head?, isBlank c = false) ∧
      ∀ c ∈ (joined sep words).getLast?, isBlank c = false by
    obtain ⟨hnonempty, hhead, hlast⟩ := hends
    have htrim := trim_append isBlank_of_mem_nil isBlank_of_mem_nil hnonempty hhead hlast
    rw [List.append_nil, List.nil_append] at htrim
    exact ⟨hnonempty, htrim⟩
  induction words with
  | nil => exact absurd rfl hne
  | cons word words ih =>
    have hword := h word List.mem_cons_self
    have hhead : ∀ c ∈ word.head?, isBlank c = false :=
      fun c hc => hword.not_isBlank c (List.mem_of_mem_head? hc)
    cases words with
    | nil =>
      exact ⟨hword.ne_nil, hhead,
        fun c hc => hword.not_isBlank c (List.mem_of_mem_getLast? hc)⟩
    | cons next words =>
      obtain ⟨hnonempty, -, hlast⟩ := ih (List.cons_ne_nil _ _)
        fun other hother => h other (List.mem_cons_of_mem _ hother)
      refine ⟨by simp [joined_cons_cons], ?_, ?_⟩
      · rwa [joined_cons_cons, List.head?_append_of_ne_nil _ hword.ne_nil]
      · rw [joined_cons_cons, List.append_cons, List.append_cons, List.append_cons,
          List.getLast?_append_of_ne_nil _ hnonempty]
        exact hlast

/-- The words of a joined text are its trimmed pieces. -/
theorem map_trim_splitOn_joined (hsep : isBlank sep = false) (hne : words ≠ [])
    (h : ∀ word ∈ words, IsWord sep word) :
    (splitOn sep (joined sep words)).map trim = words := by
  have hblank : ∀ c ∈ [' '], isBlank c = true := by
    intro c hc
    rw [List.mem_singleton.mp hc]
    rfl
  have hspace : sep ≠ ' ' := by
    rintro rfl
    cases hsep
  -- All words but the first have a blank before them.
  suffices hall : ∀ blanks : List Char, (∀ c ∈ blanks, isBlank c = true) →
      (splitOn sep (blanks ++ joined sep words)).map trim = words from
    hall [] isBlank_of_mem_nil
  induction words with
  | nil => exact absurd rfl hne
  | cons word words ih =>
    intro blanks hblanks
    have hword := h word List.mem_cons_self
    have hnot : sep ∉ blanks := fun hmem => by
      rw [hblanks sep hmem] at hsep
      cases hsep
    cases words with
    | nil =>
      have htrim := trim_append_of_isWord hblanks isBlank_of_mem_nil hword
      rw [List.append_nil] at htrim
      rw [joined, splitOn_of_not_mem (by simp [hnot, hword.not_mem]), List.map_singleton, htrim]
    | cons next words =>
      have hrest := ih (List.cons_ne_nil _ _)
        (fun other hother => h other (List.mem_cons_of_mem _ hother)) [' '] hblank
      have hcut : blanks ++ joined sep (word :: next :: words) =
          (blanks ++ (word ++ [' '])) ++ sep :: ([' '] ++ joined sep (next :: words)) := by
        simp [joined]
      rw [hcut, splitOn_append, splitOn_of_not_mem (by simp [hnot, hword.not_mem, hspace]),
        List.singleton_append, List.map_cons, hrest, trim_append_of_isWord hblanks hblank hword]

/-! ### Hexadecimal numbers -/

theorem hexText_ne_nil (n : Nat) : hexText n ≠ [] := by
  rw [hexText]
  split <;> simp

/-- Hexadecimal digits are none of the characters that mean something else. -/
theorem mem_hexText {c : Char} {n : Nat} (h : c ∈ hexText n) : ∃ digit < 16, c = hexDigit digit := by
  induction n using Nat.strongRecOn with
  | _ n ih =>
    rw [hexText] at h
    split at h
    · exact ⟨n, ‹_›, List.mem_singleton.mp h⟩
    · rcases List.mem_append.mp h with hfront | hlast
      · exact ih (n / 16) (by omega) hfront
      · exact ⟨n % 16, by omega, List.mem_singleton.mp hlast⟩

/-- A written number is read back. -/
theorem hexNumber?_hexText (n : Nat) : hexNumber? (hexText n) = some n := by
  have hdigits : ∀ n, ∃ digits : List Nat, (hexText n).mapM hexValue? = some digits ∧
      digits.foldl (fun n d => 16 * n + d) 0 = n := by
    intro n
    induction n using Nat.strongRecOn with
    | _ n ih =>
      rw [hexText]
      split
      · exact ⟨[n], by simp [hexValue?_hexDigit n ‹_›], by simp⟩
      · obtain ⟨digits, hmap, hvalue⟩ := ih (n / 16) (by omega)
        refine ⟨digits ++ [n % 16], ?_, ?_⟩
        · simp [List.mapM_append, hmap, hexValue?_hexDigit (n % 16) (by omega)]
        · rw [List.foldl_append, hvalue, List.foldl_cons, List.foldl_nil]
          omega
  obtain ⟨digits, hmap, hvalue⟩ := hdigits n
  rw [hexNumber?, hmap, Option.map_some, hvalue]
  exact hexText_ne_nil n

end DeclMerge.Text
