import DeclMerge.Json.Readable
import DeclMerge.Json.Record
import DeclMerge.Proofs.Association
import DeclMerge.Proofs.Json.Layout
import Mathlib.Data.List.Forall2
import Mathlib.Data.List.Perm.Basic
import Mathlib.Data.Option.Basic

/-!
# Reordered objects

The members of an object have no order of their own. Two values are the same but for the order of
members if one turns into the other by reordering the members of some objects, wherever these stand.
Whatever reads structures by the names of their fields does not see the difference.

## Main definitions

* `Json.Reordered` — values that differ in the order of members
* `Json.OrderFree` — what does not depend on the order of members
* `Json.Record.Alike` — records whose fields differ in the order of members

## Main results

* `Json.orderFree_of_steps` — it is enough to look at one object, one member or one item
* `Json.orderFree_openRecord?`, `Json.orderFree_objectRecord?` — structures read by their fields
-/

namespace DeclMerge.Json

/-- The second value is the first one with the members of some objects in another order. -/
inductive Reordered : Json → Json → Prop
  | refl (json : Json) : Reordered json json
  | trans {a b c : Json} (hab : Reordered a b) (hbc : Reordered b c) : Reordered a c
  | keys {members members' : List (String × Json)} (h : members.Perm members') :
      Reordered (.object members) (.object members')
  | member {value value' : Json} (before after : List (String × Json)) (key : String)
      (h : Reordered value value') :
      Reordered (.object (before ++ (key, value) :: after))
        (.object (before ++ (key, value') :: after))
  | item {value value' : Json} (before after : List Json) (h : Reordered value value') :
      Reordered (.array (before ++ value :: after)) (.array (before ++ value' :: after))

/-- What does not depend on the order of members. -/
def OrderFree {α : Type} (f : Json → α) : Prop :=
  ∀ ⦃json json' : Json⦄, Reordered json json' → f json = f json'

section OrderFree

variable {α β : Type} {f : Json → α}

/-- What does not depend on the order of the members of one object, nor on the order inside one
member or one item, does not depend on any order. -/
theorem orderFree_of_steps
    (hkeys : ∀ {members members' : List (String × Json)}, members.Perm members' →
      f (.object members) = f (.object members'))
    (hmember : ∀ (before after : List (String × Json)) (key : String) {value value' : Json},
      Reordered value value' → f value = f value' →
      f (.object (before ++ (key, value) :: after)) =
        f (.object (before ++ (key, value') :: after)))
    (hitem : ∀ (before after : List Json) {value value' : Json}, Reordered value value' →
      f value = f value' →
      f (.array (before ++ value :: after)) = f (.array (before ++ value' :: after))) :
    OrderFree f := by
  intro json json' h
  induction h with
  | refl json => rfl
  | trans _ _ ihab ihbc => exact ihab.trans ihbc
  | keys hperm => exact hkeys hperm
  | member before after key h ih => exact hmember before after key h ih
  | item before after h ih => exact hitem before after h ih

/-- What is the same for all objects and the same for all arrays does not depend on any order. -/
theorem orderFree_of_const (hobject : ∀ members members', f (.object members) = f (.object members'))
    (harray : ∀ items items', f (.array items) = f (.array items')) : OrderFree f :=
  orderFree_of_steps (fun _ => hobject _ _) (fun _ _ _ _ _ _ _ => hobject _ _)
    fun _ _ _ _ _ _ => harray _ _

/-- A function that goes through a list from its end is a fold. -/
theorem eq_foldr_of_cons {g : List β → α} {op : β → α → α} {start : α} (hnil : g [] = start)
    (hcons : ∀ b bs, g (b :: bs) = op b (g bs)) (bs : List β) : g bs = bs.foldr op start := by
  induction bs with
  | nil => exact hnil
  | cons b bs ih => rw [hcons, ih, List.foldr_cons]

/-- A measure that combines those of the items or of the members in any order does not depend on
their order. -/
theorem orderFree_of_fold {ofItems : List Json → α} {ofMembers : List (String × Json) → α}
    (op : α → α → α) [LeftCommutative op] (start : α) (wrap : α → α)
    (harray : ∀ items, f (.array items) = wrap (ofItems items))
    (hobject : ∀ members, f (.object members) = wrap (ofMembers members))
    (hnoItems : ofItems [] = start)
    (hitems : ∀ item items, ofItems (item :: items) = op (f item) (ofItems items))
    (hnoMembers : ofMembers [] = start)
    (hmembers : ∀ member members,
      ofMembers (member :: members) = op (f member.2) (ofMembers members)) :
    OrderFree f := by
  have hitemsFold := eq_foldr_of_cons hnoItems hitems
  have hmembersFold := eq_foldr_of_cons hnoMembers hmembers
  apply orderFree_of_steps
  · intro members members' hperm
    have hcomm : LeftCommutative fun (member : String × Json) a => op (f member.2) a :=
      ⟨fun _ _ _ => LeftCommutative.left_comm _ _ _⟩
    rw [hobject, hobject, hmembersFold, hmembersFold, hperm.foldr_eq]
  · intro before after key value value' _ heq
    rw [hobject, hobject, hmembersFold, hmembersFold, List.foldr_append, List.foldr_append,
      List.foldr_cons, List.foldr_cons, heq]
  · intro before after value value' _ heq
    rw [harray, harray, hitemsFold, hitemsFold, List.foldr_append, List.foldr_append,
      List.foldr_cons, List.foldr_cons, heq]

theorem OrderFree.comp (hf : OrderFree f) (g : α → β) : OrderFree fun json => g (f json) :=
  fun _ _ h => congrArg g (hf h)

end OrderFree

/-! ### Measures of values -/

/-- Reordering members opens nothing more deeply. -/
theorem orderFree_nesting : OrderFree nesting :=
  orderFree_of_fold max 0 (· + 1) (fun _ => rfl) (fun _ => rfl) rfl (fun _ _ => rfl) rfl
    fun _ _ => rfl

theorem orderFree_isReadable : OrderFree isReadable :=
  orderFree_of_fold and true id (fun _ => rfl) (fun _ => rfl) rfl (fun _ _ => rfl) rfl
    fun _ _ => rfl

theorem orderFree_isTextual : OrderFree isTextual :=
  orderFree_of_fold and true id (fun _ => rfl) (fun _ => rfl) rfl (fun _ _ => rfl) rfl
    fun _ _ => rfl

/-! ### Records -/

/-- Each field is given in both records, by values that differ in the order of members, or in
neither. -/
def Record.Alike (record record' : Record) : Prop :=
  ∀ name, Option.Rel Reordered (record.get? name) (record'.get? name)

namespace Record.Alike

variable {record record' : Record} {α : Type} {read : Json → Option α}

theorem required?_eq (h : record.Alike record') (hread : OrderFree read) (name : String) :
    record.required? name read = record'.required? name read := by
  rw [required?, required?]
  have hname := h name
  generalize record.get? name = value?, record'.get? name = value'? at hname ⊢
  cases hname with
  | some hvalue => exact hread hvalue
  | none => rfl

theorem optional?_eq (h : record.Alike record') (hread : OrderFree read) (name : String)
    (default : α) :
    record.optional? name default read = record'.optional? name default read := by
  rw [optional?, optional?]
  have hname := h name
  generalize record.get? name = value?, record'.get? name = value'? at hname ⊢
  cases hname with
  | some hvalue => exact hread hvalue
  | none => rfl

end Record.Alike

/-- What is found under a name in lists with the same keys. -/
theorem rel_lookup {members members' : List (String × Json)}
    (h : List.Forall₂ (fun m m' => m.1 = m'.1 ∧ Reordered m.2 m'.2) members members')
    (name : String) : Option.Rel Reordered (members.lookup name) (members'.lookup name) := by
  induction h with
  | nil => exact .none
  | @cons member member' members members' hmember _ ih =>
    obtain ⟨key, value⟩ := member
    obtain ⟨key', value'⟩ := member'
    obtain ⟨rfl, hvalue⟩ := hmember
    by_cases hname : name = key
    · subst hname
      rw [List.lookup_cons_self, List.lookup_cons_self]
      exact .some hvalue
    · rw [List.lookup_cons, List.lookup_cons, beq_eq_false_iff_ne.mpr hname]
      exact ih

section Records

variable {α : Type} {names : List String} {f : Record → Option α} {value value' : Json}

/-- Fields with the same names of which at most one differs. -/
theorem forall₂_members (before after : List (String × Json)) (key : String)
    (h : Reordered value value') :
    List.Forall₂ (fun m m' => m.1 = m'.1 ∧ Reordered m.2 m'.2)
      (before ++ (key, value) :: after) (before ++ (key, value') :: after) := by
  have hsame : ∀ members : List (String × Json),
      List.Forall₂ (fun m m' => m.1 = m'.1 ∧ Reordered m.2 m'.2) members members :=
    fun members => List.forall₂_same.mpr fun member _ => ⟨rfl, .refl member.2⟩
  exact List.rel_append (hsame before) (.cons ⟨rfl, h⟩ (hsame after))

/-- Fields named by their places of which at most one differs. -/
theorem forall₂_zip (names : List String) (before after : List Json) (h : Reordered value value') :
    List.Forall₂ (fun m m' => m.1 = m'.1 ∧ Reordered m.2 m'.2)
      (names.zip (before ++ value :: after)) (names.zip (before ++ value' :: after)) := by
  induction names generalizing before with
  | nil => exact .nil
  | cons name names ih =>
    cases before with
    | nil => exact .cons ⟨rfl, h⟩ (List.forall₂_same.mpr fun field _ => ⟨rfl, .refl field.2⟩)
    | cons item before => exact .cons ⟨rfl, .refl item⟩ (ih before)

/-- Objects with the same fields up to order have like records. -/
theorem bind_objectRecord?_eq {members members' : List (String × Json)}
    (hf : ∀ record record' : Record, record.Alike record' → f record = f record')
    (honce : givenOnce names members = givenOnce names members')
    (halike : givenOnce names members = true → ∀ name ∈ names,
      Option.Rel Reordered (members.lookup name) (members'.lookup name)) :
    ((Json.object members).objectRecord? names).bind f =
      ((Json.object members').objectRecord? names).bind f := by
  rw [objectRecord?, objectRecord?, ← honce]
  split
  · rename_i hgiven
    apply hf
    intro name
    rw [Record.get?, Record.get?, lookup_filter_contains, lookup_filter_contains]
    split
    · exact halike hgiven name ‹_›
    · exact .none
  · rfl

/-- The record of an object does not depend on the order of its members. -/
theorem orderFree_objectRecord?
    (hf : ∀ record record' : Record, record.Alike record' → f record = f record') :
    OrderFree fun json => (json.objectRecord? names).bind f := by
  apply orderFree_of_steps
  · intro members members' hperm
    apply bind_objectRecord?_eq hf
    · simp only [givenOnce, hperm.countP_eq]
    · -- A field that is given twice leaves no record, so no field depends on which one is first.
      intro hgiven name hname
      have honce := of_decide_eq_true (List.all_eq_true.mp hgiven name hname)
      rw [lookup_eq_of_perm hperm honce]
      cases members'.lookup name with
      | none => exact .none
      | some value => exact .some (.refl value)
  · intro before after key value value' hvalue _
    apply bind_objectRecord?_eq hf
    · simp only [givenOnce, List.countP_append, List.countP_cons]
    · exact fun _ name _ => rel_lookup (forall₂_members before after key hvalue) name
  · intro before after value value' _ _
    rfl

/-- The record of an object or of an array does not depend on the order of members. -/
theorem orderFree_openRecord?
    (hf : ∀ record record' : Record, record.Alike record' → f record = f record') :
    OrderFree fun json => (json.openRecord? names).bind f := by
  apply orderFree_of_steps
  · exact fun hperm => orderFree_objectRecord? hf (.keys hperm)
  · exact fun before after key _ _ hvalue _ =>
      orderFree_objectRecord? hf (.member before after key hvalue)
  · -- The fields of an array have their names from their places, which stay.
    intro before after value value' hvalue _
    simp only [openRecord?, arrayRecord?, List.length_append, List.length_cons]
    split
    · exact hf _ _ fun name => rel_lookup (forall₂_zip names before after hvalue) name
    · rfl

end Records

/-! ### Scalars, lists and names -/

theorem orderFree_asText? : OrderFree asText? :=
  orderFree_of_const (fun _ _ => rfl) fun _ _ => rfl

theorem orderFree_asBool? : OrderFree asBool? :=
  orderFree_of_const (fun _ _ => rfl) fun _ _ => rfl

theorem orderFree_asItems? {α : Type} {read : Json → Option α} (h : OrderFree read) :
    OrderFree (asItems? read) := by
  apply orderFree_of_steps
  · exact fun _ => rfl
  · exact fun _ _ _ _ _ _ _ => rfl
  · intro before after value value' hvalue _
    rw [asItems?, asItems?, List.mapM_append, List.mapM_append, List.mapM_cons, List.mapM_cons,
      h hvalue]

theorem orderFree_isUnit (inPayload : Bool) : OrderFree (isUnit inPayload) := by
  apply orderFree_of_steps
  · intro members members' hperm
    cases members with
    | nil => rw [hperm.nil_eq]
    | cons member members =>
      cases members' with
      | nil => exact absurd hperm.eq_nil (List.cons_ne_nil _ _)
      | cons => rfl
  · intro before after key value value' _ _
    cases before <;> rfl
  · exact fun _ _ _ _ _ _ => rfl

theorem orderFree_asTag? {α : Type} (table : List (String × α)) (inPayload : Bool) :
    OrderFree (asTag? table inPayload) := by
  apply orderFree_of_steps
  · intro members members' hperm
    match members, members' with
    | [], _ => rw [hperm.nil_eq]
    | [member], _ => rw [hperm.singleton_eq]
    | _ :: _ :: _, [] => exact absurd hperm.eq_nil (List.cons_ne_nil _ _)
    | _ :: _ :: _, [_] => exact absurd hperm.length_eq (by simp)
    | _ :: _ :: _, _ :: _ :: _ => rfl
  · -- A name is the key of the only member there is.
    intro before after key value value' hvalue _
    match before, after with
    | [], [] =>
      rw [List.nil_append, List.nil_append, asTag?, asTag?, orderFree_isUnit inPayload hvalue]
    | [], _ :: _ => rfl
    | [_], _ => rfl
    | _ :: _ :: _, _ => rfl
  · exact fun _ _ _ _ _ _ => rfl

end DeclMerge.Json
