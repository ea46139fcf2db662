import DeclMerge.Declaration.Codec
import DeclMerge.Proofs.Declaration.Flags
import DeclMerge.Proofs.Json.Reordering
import DeclMerge.Proofs.Steps

/-!
# Declarations read back

Types, parameters and declarations are read back from what they are written as. Reading goes by the
names of the fields, so the order of the members of an object makes no difference to it.

## Main definitions

* `Declaration.payloadMembers` — what a declaration is written as behind its header

## Main results

* `TypeExpr.ofJson?_toJson`, `Parameter.ofJson?_toJson`, `Declaration.ofJson?_toJson` — what is written
  is read back
* `TypeExpr.orderFree_ofJson?`, `Parameter.orderFree_ofJson?`, `Declaration.orderFree_ofJson?` —
  reading does not depend on the order of members
-/

namespace DeclMerge

open Json (OrderFree)

/-- A list is read back if each of its elements is. -/
theorem Json.asItems?_map {α : Type} {read : Json → Option α} {write : α → Json} (as : List α)
    (h : ∀ a ∈ as, read (write a) = some a) : asItems? read (.array (as.map write)) = some as := by
  rw [asItems?, List.mapM_map]
  exact mapM_eq_some_iff.mpr (List.forall₂_same.mpr h)

/-! ### Names and flags -/

theorem Name.orderFree_ofJson? : OrderFree Name.ofJson? :=
  Json.orderFree_asText?.comp _

theorem QualifiedName.orderFree_ofJson? : OrderFree QualifiedName.ofJson? :=
  Json.orderFree_asText?.comp _

theorem Flags.orderFree_ofJson? : OrderFree Flags.ofJson? :=
  Json.orderFree_asText?.comp fun text? => text?.bind Flags.ofText?

theorem Flags.ofJson?_toJson (flags : Flags) : Flags.ofJson? flags.toJson = some flags :=
  Flags.ofText?_text flags

/-! ### Types -/

namespace TypeExpr

theorem orderFree_ofJsonWithin? (levels : Nat) : OrderFree (ofJsonWithin? levels) := by
  induction levels with
  | zero => exact fun _ _ _ => rfl
  | succ levels ih =>
    refine Json.orderFree_openRecord? fun record record' h => ?_
    rw [h.required?_eq QualifiedName.orderFree_ofJson?,
      h.optional?_eq (Json.orderFree_asItems? ih), h.optional?_eq Json.orderFree_asBool?]

theorem orderFree_ofJson? : OrderFree ofJson? := by
  intro json json' h
  rw [ofJson?, ofJson?, Json.orderFree_nesting h, orderFree_ofJsonWithin? _ h]

theorem toJsonList_eq_map (types : List TypeExpr) : toJsonList types = types.map toJson := by
  induction types with
  | nil => rfl
  | cons type types ih => rw [toJsonList, ih, List.map_cons]

/-- What a type is written as; arguments and nullability are left out where there are none. -/
theorem exists_record_toJson (type : TypeExpr) :
    ∃ record, type.toJson.openRecord? fields = some record ∧
      record.get? "classifier" = some type.classifier.toJson ∧
      record.get? "arguments" =
        (if type.arguments = [] then none else some (.array (type.arguments.map toJson))) ∧
      record.get? "nullable" = if type.nullable then some (.bool true) else none := by
  obtain ⟨classifier, arguments, nullable⟩ := type
  cases arguments with
  | nil => cases nullable <;> exact ⟨_, rfl, rfl, rfl, rfl⟩
  | cons argument arguments =>
    rw [toJson, toJsonList_eq_map]
    cases nullable <;> exact ⟨_, rfl, rfl, rfl, rfl⟩

/-- An argument is written less deeply nested than the type. -/
theorem nesting_toJson_lt {argument type : TypeExpr} (h : argument ∈ type.arguments) :
    argument.toJson.nesting < type.toJson.nesting := by
  obtain ⟨classifier, arguments, nullable⟩ := type
  cases arguments with
  | nil => cases h
  | cons first rest =>
    rw [toJson, toJsonList_eq_map]
    apply Nat.lt_trans (Json.nesting_lt_of_mem (List.mem_map_of_mem h))
    exact Json.nesting_lt_of_mem_members (List.mem_cons_of_mem _ List.mem_cons_self)

/-- A type is read back where it is nested less deeply than may be. -/
theorem ofJsonWithin?_toJson {levels : Nat} {type : TypeExpr} (h : type.toJson.nesting < levels) :
    ofJsonWithin? levels type.toJson = some type := by
  induction levels generalizing type with
  | zero => cases h
  | succ levels ih =>
    obtain ⟨record, hrecord, hclassifier, harguments, hnullable⟩ := exists_record_toJson type
    have hclassifier : record.required? "classifier" QualifiedName.ofJson? =
        some type.classifier := by
      rw [Json.Record.required?, hclassifier]
      rfl
    have harguments : record.optional? "arguments" [] (Json.asItems? (ofJsonWithin? levels)) =
        some type.arguments := by
      rw [Json.Record.optional?, harguments]
      split_ifs with hnone
      · -- Arguments that are left out default to none.
        rw [hnone]
      · exact Json.asItems?_map type.arguments fun argument hargument =>
          ih (Nat.lt_of_lt_of_le (nesting_toJson_lt hargument) (Nat.le_of_lt_succ h))
    have hnullable : record.optional? "nullable" false Json.asBool? = some type.nullable := by
      rw [Json.Record.optional?, hnullable]
      cases type.nullable <;> rfl
    rw [ofJsonWithin?, hrecord]
    simp only [Option.bind_eq_bind, Option.bind_some, hclassifier, harguments, hnullable]
    cases type
    rfl

mutual
/-- What a type is written as has no numbers in it. -/
theorem isTextual_toJson (type : TypeExpr) : type.toJson.isTextual = true := by
  match type with
  | ⟨classifier, [], nullable⟩ => cases nullable <;> rfl
  | ⟨classifier, argument :: arguments, nullable⟩ =>
    have hitems : Json.isTextualItems (toJsonList (argument :: arguments)) = true :=
      isTextualItems_toJsonList (argument :: arguments)
    rw [toJson, Json.isTextual, Json.isTextualMembers, Json.isTextualMembers, Json.isTextual]
    rw [toJsonList] at hitems
    rw [hitems]
    cases nullable <;> rfl
theorem isTextualItems_toJsonList (types : List TypeExpr) :
    Json.isTextualItems (toJsonList types) = true := by
  match types with
  | [] => rfl
  | type :: types =>
    exact Bool.and_eq_true_iff.mpr ⟨isTextual_toJson type, isTextualItems_toJsonList types⟩
end

theorem ofJson?_toJson (type : TypeExpr) : ofJson? type.toJson = some type :=
  ofJsonWithin?_toJson (Nat.lt_succ_self _)

/-- A type is no null, which would leave out a receiver. -/
theorem receiverOfJson?_toJson (type : TypeExpr) :
    receiverOfJson? type.toJson = some (some type) := by
  have hread : (TypeExpr.ofJson? type.toJson).map some = some (some type) := by
    rw [ofJson?_toJson, Option.map_some]
  -- Only when it is taken apart does the type show that it is an object.
  obtain ⟨classifier, arguments, nullable⟩ := type
  cases arguments <;> exact hread

end TypeExpr

theorem orderFree_typesOfJson? : OrderFree typesOfJson? :=
  Json.orderFree_asItems? TypeExpr.orderFree_ofJson?

theorem typesOfJson?_map_toJson (types : List TypeExpr) :
    typesOfJson? (.array (types.map TypeExpr.toJson)) = some types :=
  Json.asItems?_map types fun type _ => TypeExpr.ofJson?_toJson type

/-- Neither an object nor an array leaves out a receiver. -/
theorem orderFree_receiverOfJson? : OrderFree receiverOfJson? := by
  have hread : OrderFree fun json => (TypeExpr.ofJson? json).map some :=
    TypeExpr.orderFree_ofJson?.comp _
  apply Json.orderFree_of_steps
  · exact fun hperm => hread (.keys hperm)
  · exact fun before after key _ _ hvalue _ => hread (.member before after key hvalue)
  · exact fun before after _ _ hvalue _ => hread (.item before after hvalue)

/-! ### Parameters -/

namespace Parameter

theorem orderFree_ofJson? : OrderFree ofJson? := by
  refine Json.orderFree_openRecord? fun record record' h => ?_
  rw [h.required?_eq Name.orderFree_ofJson?, h.required?_eq TypeExpr.orderFree_ofJson?,
    h.optional?_eq Json.orderFree_asBool?]

theorem isTextual_toJson (parameter : Parameter) : parameter.toJson.isTextual = true := by
  have htype := TypeExpr.isTextual_toJson parameter.type
  simp [toJson, Name.toJson, Json.isTextual, Json.isTextualMembers, htype]

theorem ofJson?_toJson (parameter : Parameter) : ofJson? parameter.toJson = some parameter := by
  let record : Json.Record := ⟨[("name", parameter.name.toJson), ("type", parameter.type.toJson),
    ("is_var", .bool parameter.isVar)]⟩
  have hrecord : parameter.toJson.openRecord? fields = some record := rfl
  have hname : record.required? "name" Name.ofJson? = some parameter.name := rfl
  have htype : record.required? "type" TypeExpr.ofJson? = some parameter.type :=
    TypeExpr.ofJson?_toJson parameter.type
  have hvar : record.optional? "is_var" false Json.asBool? = some parameter.isVar := rfl
  simp only [ofJson?, hrecord, hname, htype, hvar, Option.bind_eq_bind, Option.bind_some]
  rfl

end Parameter

/-! ### Declarations -/

namespace Declaration

theorem toJsonList_eq_map (declarations : List Declaration) :
    toJsonList declarations = declarations.map toJson := by
  induction declarations with
  | nil => rfl
  | cons d ds ih => rw [toJsonList, ih, List.map_cons]

/-- What a declaration is written as behind its header. -/
def payloadMembers : Declaration → List (String × Json)
  | .function _ receiver parameters returnType =>
    optionalMember "receiver" (receiver.map TypeExpr.toJson) ++
      [("params", .array (parameters.map Parameter.toJson)), ("return_type", returnType.toJson)]
  | .property _ receiver type =>
    optionalMember "receiver" (receiver.map TypeExpr.toJson) ++ [("type", type.toJson)]
  | .class _ kind supertypes members =>
    [("class_kind", .string kind.tag), ("supertypes", .array (supertypes.map TypeExpr.toJson)),
      ("members", .array (members.map toJson))]
  | .typeAlias _ underlying expanded =>
    [("underlying", underlying.toJson), ("expanded", expanded.toJson)]
  | .value _ type => [("type", type.toJson)]

theorem toJson_eq (d : Declaration) :
    d.toJson = .object (headerMembers d.header d.kind ++ d.payloadMembers) := by
  cases d with
  | function | property => rw [toJson, List.append_assoc]; rfl
  | «class» => rw [toJson, toJsonList_eq_map]; rfl
  | typeAlias | value => rfl

/-- The payload gives none of the fields of the header. -/
theorem objectRecord?_header (d : Declaration) :
    d.toJson.objectRecord? (headerFields ++ ["kind"]) = some ⟨headerMembers d.header d.kind⟩ := by
  rw [toJson_eq]
  cases d with
  | function _ receiver | property _ receiver => cases receiver <;> rfl
  | «class» | typeAlias | value => rfl

/-- The header gives none of the fields of the payload. -/
theorem objectRecord?_payload (d : Declaration) :
    d.toJson.objectRecord? (payloadFields d.kind) = some ⟨d.payloadMembers⟩ := by
  rw [toJson_eq]
  cases d with
  | function _ receiver | property _ receiver => cases receiver <;> rfl
  | «class» | typeAlias | value => rfl

section Header

variable (inPayload : Bool) (header : Header) (kind : DeclarationKind)

theorem headerOfRecord?_headerMembers :
    headerOfRecord? inPayload ⟨headerMembers header kind⟩ = some header := by
  let record : Json.Record := ⟨headerMembers header kind⟩
  have hname : record.required? "name" Name.ofJson? = some header.name := rfl
  have hvisibility : record.optional? "visibility" .public
      (Json.asTag? Visibility.table inPayload) = some header.visibility := by
    change Json.asTag? Visibility.table inPayload (.string header.visibility.text) = _
    cases header.visibility <;> rfl
  have hmodality : record.optional? "modality" .final
      (Json.asTag? Modality.table inPayload) = some header.modality := by
    change Json.asTag? Modality.table inPayload (.string header.modality.text) = _
    cases header.modality <;> rfl
  have hflags : record.optional? "flags" .empty Flags.ofJson? = some header.flags :=
    Flags.ofJson?_toJson header.flags
  change headerOfRecord? inPayload record = some header
  simp only [headerOfRecord?, Option.bind_eq_bind, hname, hvisibility, hmodality, hflags,
    Option.bind_some]
  rfl

theorem required?_kind_headerMembers :
    Json.Record.required? ⟨headerMembers header kind⟩ "kind" kindOfJson? = some kind := by
  cases kind <;> rfl

end Header

/-- A receiver is read back, whether it is there or left out. -/
theorem optional?_receiver (receiver : Option TypeExpr) (rest : List (String × Json))
    (hrest : rest.lookup "receiver" = none) :
    Json.Record.optional? ⟨optionalMember "receiver" (receiver.map TypeExpr.toJson) ++ rest⟩
      "receiver" none receiverOfJson? = some receiver := by
  cases receiver with
  | none =>
    simp only [Json.Record.optional?, Json.Record.get?, Option.map_none, optionalMember,
      List.nil_append, hrest]
  | some type => exact TypeExpr.receiverOfJson?_toJson type

/-- A member of a class is written less deeply nested than the class. -/
theorem nesting_toJson_lt {member d : Declaration} (h : member ∈ d.members) :
    member.toJson.nesting < d.toJson.nesting := by
  cases d with
  | «class» header kind supertypes members =>
    rw [toJson, toJsonList_eq_map]
    apply Nat.lt_trans (Json.nesting_lt_of_mem (List.mem_map_of_mem h))
    exact Json.nesting_lt_of_mem_members (List.mem_append_right _
      (List.mem_cons_of_mem _ (List.mem_cons_of_mem _ List.mem_cons_self)))
  | _ => cases h

/-- A declaration is read back where classes are nested less deeply than may be, at the top and as a
member alike. -/
theorem ofJsonWithin?_toJson {levels : Nat} {d : Declaration} (h : d.toJson.nesting < levels)
    (inPayload : Bool) : ofJsonWithin? levels inPayload d.toJson = some d := by
  induction levels generalizing d inPayload with
  | zero => cases h
  | succ levels ih =>
    have hheader := headerOfRecord?_headerMembers inPayload d.header d.kind
    have hkind := required?_kind_headerMembers d.header d.kind
    -- The header says which kind it is, and the kind which fields the payload has.
    rw [ofJsonWithin?, objectRecord?_header]
    simp only [Option.bind_eq_bind, Option.bind_some, hheader, hkind, objectRecord?_payload]
    cases d with
    | function header receiver parameters returnType =>
      let payload : Json.Record := ⟨payloadMembers (.function header receiver parameters returnType)⟩
      have hreceiver : payload.optional? "receiver" none receiverOfJson? = some receiver :=
        optional?_receiver receiver _ rfl
      have hparameters : payload.optional? "params" [] (Json.asItems? Parameter.ofJson?) =
          some parameters := by
        have hread := Json.asItems?_map parameters fun p _ => Parameter.ofJson?_toJson p
        cases receiver <;> exact hread
      have htype : payload.required? "return_type" TypeExpr.ofJson? = some returnType := by
        have hread := TypeExpr.ofJson?_toJson returnType
        cases receiver <;> exact hread
      simp only [kind, payload] at hreceiver hparameters htype ⊢
      simp only [hreceiver, hparameters, htype, Option.bind_some]
      rfl
    | property header receiver type =>
      let payload : Json.Record := ⟨payloadMembers (.property header receiver type)⟩
      have hreceiver : payload.optional? "receiver" none receiverOfJson? = some receiver :=
        optional?_receiver receiver _ rfl
      have htype : payload.required? "type" TypeExpr.ofJson? = some type := by
        have hread := TypeExpr.ofJson?_toJson type
        cases receiver <;> exact hread
      simp only [kind, payload] at hreceiver htype ⊢
      simp only [hreceiver, htype, Option.bind_some]
      rfl
    | «class» header kind supertypes members =>
      let payload : Json.Record := ⟨payloadMembers (.class header kind supertypes members)⟩
      have hkind : payload.optional? "class_kind" .class (Json.asTag? ClassKind.table true) =
          some kind := by
        cases kind <;> rfl
      have hsupertypes : payload.optional? "supertypes" [] typesOfJson? = some supertypes :=
        typesOfJson?_map_toJson supertypes
      have hmembers : payload.optional? "members" [] (Json.asItems? (ofJsonWithin? levels true)) =
          some members := by
        -- A member is part of a payload, whatever the class is part of.
        refine Json.asItems?_map members fun member hmember => ih ?_ true
        have hlt := nesting_toJson_lt (d := .class header kind supertypes members) hmember
        exact Nat.lt_of_lt_of_le hlt (Nat.le_of_lt_succ h)
      simp only [Declaration.kind, payload] at hkind hsupertypes hmembers ⊢
      simp only [hkind, hsupertypes, hmembers, Option.bind_some]
      rfl
    | typeAlias header underlying expanded =>
      let payload : Json.Record := ⟨payloadMembers (.typeAlias header underlying expanded)⟩
      have hunderlying : payload.required? "underlying" TypeExpr.ofJson? = some underlying :=
        TypeExpr.ofJson?_toJson underlying
      have hexpanded : payload.required? "expanded" TypeExpr.ofJson? = some expanded :=
        TypeExpr.ofJson?_toJson expanded
      simp only [kind, payload] at hunderlying hexpanded ⊢
      simp only [hunderlying, hexpanded, Option.bind_some]
      rfl
    | value header type =>
      let payload : Json.Record := ⟨payloadMembers (.value header type)⟩
      have htype : payload.required? "type" TypeExpr.ofJson? = some type :=
        TypeExpr.ofJson?_toJson type
      simp only [kind, payload] at htype ⊢
      simp only [htype, Option.bind_some]
      rfl

/-- What a declaration is written as has no numbers in it. -/
theorem isTextual_toJson (d : Declaration) : d.toJson.isTextual = true := by
  induction d using Declaration.induction with
  | step d ih =>
    rw [toJson_eq, Json.isTextual, Json.isTextualMembers_append, Bool.and_eq_true]
    refine ⟨rfl, ?_⟩
    have htype := TypeExpr.isTextual_toJson
    cases d with
    | function header receiver parameters returnType =>
      have hparameters := Json.isTextualItems_map parameters
        fun parameter _ => parameter.isTextual_toJson
      cases receiver <;> simp [payloadMembers, optionalMember, Json.isTextualMembers,
        Json.isTextual, hparameters, htype]
    | property header receiver type =>
      cases receiver <;> simp [payloadMembers, optionalMember, Json.isTextualMembers, htype]
    | «class» header kind supertypes members =>
      have hsupertypes := Json.isTextualItems_map supertypes fun type _ => htype type
      have hmembers := Json.isTextualItems_map members ih
      simp [payloadMembers, Json.isTextualMembers, Json.isTextual, hsupertypes, hmembers]
    | typeAlias header underlying expanded => simp [payloadMembers, Json.isTextualMembers, htype]
    | value header type => simp [payloadMembers, Json.isTextualMembers, htype]

/-- A declaration is read back. -/
theorem ofJson?_toJson (d : Declaration) : ofJson? d.toJson = some d := by
  have hreadable := Json.isReadable_of_isTextual _ (isTextual_toJson d)
  rw [ofJson?, if_pos hreadable]
  exact ofJsonWithin?_toJson (Nat.lt_succ_self _) false

/-! ### Reordered declarations -/

theorem orderFree_kindOfJson? : OrderFree kindOfJson? :=
  Json.orderFree_of_const (fun _ _ => rfl) fun _ _ => rfl

theorem headerOfRecord?_eq {record record' : Json.Record} (h : record.Alike record')
    (inPayload : Bool) : headerOfRecord? inPayload record = headerOfRecord? inPayload record' := by
  rw [headerOfRecord?, headerOfRecord?, h.required?_eq Name.orderFree_ofJson?,
    h.optional?_eq (Json.orderFree_asTag? _ _), h.optional?_eq (Json.orderFree_asTag? _ _),
    h.optional?_eq Flags.orderFree_ofJson?]

theorem orderFree_ofJsonWithin? (levels : Nat) (inPayload : Bool) :
    OrderFree (ofJsonWithin? levels inPayload) := by
  induction levels generalizing inPayload with
  | zero => exact fun _ _ _ => rfl
  | succ levels ih =>
    intro json json' h
    rw [ofJsonWithin?, ofJsonWithin?]
    -- The value is looked into twice, for its header and for its payload.
    refine (Option.bind_congr fun head _ => Option.bind_congr fun header _ =>
      Option.bind_congr fun kind _ => Json.orderFree_objectRecord? ?_ h).trans
      (Json.orderFree_objectRecord? ?_ h)
    · intro payload payload' halike
      have htype := fun name => halike.required?_eq TypeExpr.orderFree_ofJson? name
      have hreceiver := fun name => halike.optional?_eq orderFree_receiverOfJson? name none
      cases kind with
      | function =>
        simp only [htype, hreceiver,
          halike.optional?_eq (Json.orderFree_asItems? Parameter.orderFree_ofJson?)]
      | property => simp only [htype, hreceiver]
      | «class» =>
        simp only [halike.optional?_eq (Json.orderFree_asTag? _ _),
          halike.optional?_eq orderFree_typesOfJson?,
          halike.optional?_eq (Json.orderFree_asItems? (ih true))]
      | typeAlias => simp only [htype]
      | value => simp only [htype]
    · intro head head' halike
      simp only [headerOfRecord?_eq halike, halike.required?_eq orderFree_kindOfJson?]

theorem orderFree_ofJson? : OrderFree ofJson? := by
  intro json json' h
  rw [ofJson?, ofJson?, Json.orderFree_isReadable h, Json.orderFree_nesting h,
    orderFree_ofJsonWithin? _ _ h]

end Declaration

end DeclMerge
