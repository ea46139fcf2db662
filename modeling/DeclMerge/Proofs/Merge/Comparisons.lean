import DeclMerge.Proofs.Divergence.Occurrences
import DeclMerge.Proofs.Merge.Containers

/-!
# What pairing rules out

Declarations are compared because they belong to one group of a container, and then they have
something in common: the name, the receiver, the kind up to the choice between a class and a type
alias, and the parameter types if the function is overloaded. So a comparison never finds a
difference in any of these. The grouping and the checks do not know of each other; that they fit is
shown for one pair, and then for all comparisons of a run.

## Main definitions

* `comparisonOf` — the comparison of a group
* `ComparedIn` — a comparison of a group in a container that the merge comes to
* `RulesOut` — what is not to be found in the comparison of a group

## Main results

* `Paired.occurs` — what can be found where two declarations that belong together are compared
* `exists_comparedIn` — each comparison of a run is that of a group
* `mergeLibraries_rulesOut` — no comparison of a run has what pairing rules out
-/

namespace DeclMerge

variable {maker : Maker} {options : Options} {libraries : List TargetLibrary}
  {result : MergeResult} {limit levels : Nat} {container : QualifiedName}
  {inputs : List TargetInput} {group : List Contribution} {compared : Comparison}
  {a b : Declaration}

/-! ### Two declarations that belong together -/

namespace Signature

theorem receiver_of (d : Declaration) : (of d).receiver = d.receiver? := by
  cases d <;> rfl

theorem parameters_of (d : Declaration) : (of d).parameters = d.parameters.map Parameter.type := by
  cases d <;> rfl

/-- Declarations of one group are of one kind, or they are a class and a type alias. -/
theorem kind_cases_of_group_eq (h : (of a).group = (of b).group) :
    a.kind = b.kind ∨ (a.kind = .class ∧ b.kind = .typeAlias) ∨
      (a.kind = .typeAlias ∧ b.kind = .class) := by
  cases a <;> cases b <;> simp_all [of, Declaration.kind]

end Signature

/-- A class and a type alias differ in the kind of class, and nothing else is said of them. -/
theorem declarationVerdict_of_class_typeAlias
    (h : (a.kind = .class ∧ b.kind = .typeAlias) ∨ (a.kind = .typeAlias ∧ b.kind = .class)) :
    declarationVerdict a b = .fail (.composite .class [.leaf .classKind]) := by
  rcases h with ⟨ha, hb⟩ | ⟨ha, hb⟩
  all_goals
    rw [declarationVerdict_of_kind_ne (by simp [ha, hb]), differentKinds, ha, hb]
    rfl

/-- Parameters with the same types do not differ in their types. -/
theorem type_notMem_differencesAt {ps qs : List Parameter}
    (h : ps.map Parameter.type = qs.map Parameter.type) (i : Nat) :
    .type ∉ differencesAt ps qs i := by
  have hi : ps[i]?.map Parameter.type = qs[i]?.map Parameter.type := by
    rw [← List.getElem?_map, ← List.getElem?_map, h]
  rw [differencesAt]
  split
  · rename_i p q hp hq
    rw [hp, hq] at hi
    simp [Parameter.differences, Parameter.differs, Option.some.inj hi]
  · exact List.not_mem_nil

/-- On the axes of a parameter only its name, its type and its being a variable are found. -/
theorem mem_of_mem_differencesAt {ps qs : List Parameter} {i : Nat} {axis : Axis}
    (h : axis ∈ differencesAt ps qs i) : axis ∈ [Axis.qualifiedName, .type, .isVar] := by
  rw [differencesAt] at h
  split at h
  · exact List.mem_of_mem_filter h
  · cases h

/-- What can be found where two declarations that belong together are compared: no difference in
the receiver and nothing unknown, a difference in the name for parameters only, and for overloads no
difference in the number or the types of the parameters. -/
structure Findable (overloaded : Prop) (axis : Axis) (inside : Bool) : Prop where
  ne_receiver : axis ≠ .receiver
  ne_unknown : axis ≠ .unknown
  inside_of_name : axis = .qualifiedName → inside = true
  of_overloaded : overloaded → axis ≠ .size ∧ (axis = .type → inside = false)

/-- The declaration is a function whose name and receiver some target declares twice. -/
def OverloadedIn (inputs : List TargetInput) (signature : Signature) : Prop :=
  signature.group = .function ∧ ∃ input ∈ inputs, 2 ≤ input.declarations.countP fun d =>
    (Signature.of d).group = .function ∧ (Signature.of d).base = signature.base

theorem overloadedIn_congr {s t : Signature} (h : s.base = t.base) :
    OverloadedIn inputs s ↔ OverloadedIn inputs t := by
  rw [OverloadedIn, OverloadedIn, h, Signature.group_eq_of_base_eq h]

namespace Paired

theorem receiver?_eq (h : Paired inputs a b) : a.receiver? = b.receiver? := by
  rw [← Signature.receiver_of, ← Signature.receiver_of]
  simpa [Signature.base] using congrArg Signature.receiver h.1

theorem kind_cases (h : Paired inputs a b) :
    a.kind = b.kind ∨ (a.kind = .class ∧ b.kind = .typeAlias) ∨
      (a.kind = .typeAlias ∧ b.kind = .class) :=
  Signature.kind_cases_of_group_eq (Signature.group_eq_of_base_eq h.1)

theorem types_eq (h : Paired inputs a b) (hoverloaded : OverloadedIn inputs (Signature.of a)) :
    a.parameters.map Parameter.type = b.parameters.map Parameter.type := by
  rw [← Signature.parameters_of, ← Signature.parameters_of]
  exact congrArg Signature.parameters (h.2 hoverloaded.1 hoverloaded.2)

/-- The declarations themselves differ neither in their names nor in their receivers. -/
theorem findable_of_mem_differences (h : Paired inputs a b) {axis : Axis}
    (hdiffers : axis ∈ a.differences b) :
    Findable (OverloadedIn inputs (Signature.of a)) axis false := by
  have hdiffers : a.differs b axis = true := (List.mem_filter.mp hdiffers).2
  refine ⟨?_, ?_, ?_, fun _ => ⟨?_, fun _ => rfl⟩⟩
  · rintro rfl
    simp [Declaration.differs, h.receiver?_eq] at hdiffers
  · rintro rfl
    simp [Declaration.differs] at hdiffers
  · rintro rfl
    simp [Declaration.differs, h.name_eq] at hdiffers
  · rintro rfl
    simp [Declaration.differs] at hdiffers

/-- Their numbers of parameters differ only if they are not overloads. -/
theorem findable_size (h : Paired inputs a b)
    (hlength : a.parameters.length ≠ b.parameters.length) :
    Findable (OverloadedIn inputs (Signature.of a)) .size false := by
  refine ⟨by simp, by simp, by simp, fun hoverloaded => absurd ?_ hlength⟩
  simpa using congrArg List.length (h.types_eq hoverloaded)

/-- Two parameters at one position differ in their types only if the declarations are not
overloads. -/
theorem findable_of_mem_differencesAt (h : Paired inputs a b) {axis : Axis} {i : Nat}
    (hdiffers : axis ∈ differencesAt a.parameters b.parameters i) :
    Findable (OverloadedIn inputs (Signature.of a)) axis true := by
  have hmem := mem_of_mem_differencesAt hdiffers
  refine ⟨?_, ?_, fun _ => rfl, fun hoverloaded => ⟨?_, ?_⟩⟩
  · rintro rfl
    simp at hmem
  · rintro rfl
    simp at hmem
  · rintro rfl
    simp at hmem
  · rintro rfl
    exact absurd hdiffers (type_notMem_differencesAt (h.types_eq hoverloaded) i)

/-- Only what pairing leaves open is found. -/
theorem occurs (h : Paired inputs a b) {cause : Cause} {axis : Axis} {inside : Bool}
    (hcause : cause ∈ (declarationVerdict a b).causes) (hoccurs : cause.Occurs axis inside) :
    Findable (OverloadedIn inputs (Signature.of a)) axis inside := by
  rcases h.kind_cases with hkind | hmixed
  · rcases occurs_declarationVerdict hkind hcause hoccurs with ⟨rfl, hdiffers⟩ |
      ⟨rfl, rfl, hlength⟩ | ⟨rfl, i, hdiffers⟩
    · exact h.findable_of_mem_differences hdiffers
    · exact h.findable_size hlength
    · exact h.findable_of_mem_differencesAt hdiffers
  · -- A class and a type alias have the kind of class as their only cause.
    rw [declarationVerdict_of_class_typeAlias hmixed] at hcause
    obtain rfl := List.mem_singleton.mp hcause
    obtain ⟨_, hleaf, hoccurs⟩ := Cause.occurs_composite.mp hoccurs
    obtain rfl := List.mem_singleton.mp hleaf
    obtain ⟨rfl, rfl⟩ := Cause.occurs_leaf.mp hoccurs
    exact ⟨by simp, by simp, by simp, fun _ => by simp⟩

end Paired

/-! ### One comparison -/

/-- The comparison of a group: all its targets, the causes of all pairs, and the pairs that
diverge. -/
def comparisonOf (name : QualifiedName) (signature : Signature) (group : List Contribution) :
    Comparison where
  name := name
  signature := signature
  targets := .ofList (group.map Contribution.target)
  verdict := contributionVerdict group
  diverging := failingPairs group

theorem mem_compareGroup_iff {name : QualifiedName} {signature : Signature} :
    compared ∈ (compareGroup name signature group).2 ↔
      1 < group.length ∧ compared = comparisonOf name signature group := by
  rw [compareGroup]
  split
  · rename_i hmany
    exact List.mem_singleton.trans (and_iff_right hmany).symm
  · rename_i hone
    exact iff_of_false List.not_mem_nil fun h => hone h.1

/-- All causes that a comparison reports, for all targets together and for the pairs that
diverge. -/
def Comparison.allCauses (compared : Comparison) : List Cause :=
  compared.verdict.causes ++ compared.diverging.flatMap fun pair => pair.verdict.causes

theorem exists_of_mem_pairVerdicts {pair : PairVerdict} (h : pair ∈ pairVerdicts group) :
    ∃ c ∈ group, ∃ d ∈ group,
      pair = ⟨c.target, d.target, declarationVerdict c.declaration d.declaration⟩ := by
  rw [pairVerdicts_eq_map] at h
  obtain ⟨p, -, rfl⟩ := List.mem_map.mp h
  exact ⟨_, List.getElem_mem _, _, List.getElem_mem _, rfl⟩

/-- Each cause that is reported for a group is one for two of its contributions. -/
theorem exists_of_mem_allCauses {name : QualifiedName} {signature : Signature} {cause : Cause}
    (h : cause ∈ (comparisonOf name signature group).allCauses) :
    ∃ c ∈ group, ∃ d ∈ group,
      cause ∈ (declarationVerdict c.declaration d.declaration).causes := by
  have hpair : ∃ pair ∈ pairVerdicts group, cause ∈ pair.verdict.causes := by
    rcases List.mem_append.mp h with hcombined | hdiverging
    · change cause ∈ (contributionVerdict group).causes at hcombined
      rw [contributionVerdict, combineVerdicts, Verdict.causes_collect, List.flatMap_map,
        List.mem_flatMap] at hcombined
      exact hcombined
    · obtain ⟨pair, hpair, hcause⟩ := List.mem_flatMap.mp hdiverging
      exact ⟨pair, List.mem_of_mem_filter hpair, hcause⟩
  obtain ⟨pair, hpair, hcause⟩ := hpair
  obtain ⟨c, hc, d, hd, rfl⟩ := exists_of_mem_pairVerdicts hpair
  exact ⟨c, hc, d, hd, hcause⟩

/-- What pairing rules out is not found in the comparison of a group. -/
structure RulesOut (inputs : List TargetInput) (group : List Contribution)
    (compared : Comparison) : Prop where
  receiver_unknown : ∀ cause ∈ compared.allCauses,
    .receiver ∉ cause.fringe ∧ .unknown ∉ cause.fringe
  /-- Names differ inside the causes for parameters only. -/
  name : ∀ cause ∈ compared.allCauses, ¬ cause.Occurs .qualifiedName false
  kind : ∀ c ∈ group, ∀ d ∈ group, c.declaration.kind = d.declaration.kind ∨
    ((c.declaration.kind = .class ∧ d.declaration.kind = .typeAlias) ∨
      (c.declaration.kind = .typeAlias ∧ d.declaration.kind = .class)) ∧
    declarationVerdict c.declaration d.declaration = .fail (.composite .class [.leaf .classKind])
  /-- Overloads differ neither in the number nor in the types of their parameters. -/
  overload : OverloadedIn inputs compared.signature → ∀ cause ∈ compared.allCauses,
    .size ∉ cause.fringe ∧ ¬ cause.Occurs .type true

/-- The comparison of a group has nothing that pairing rules out. -/
theorem rulesOut_comparisonOf {groups : List (List Contribution)} {first : Contribution}
    (hgroups : groupContributions container inputs = .ok groups) (hgroup : group ∈ groups)
    (hfirst : first ∈ group) (name : QualifiedName) :
    RulesOut inputs group (comparisonOf name (Signature.of first.declaration) group) := by
  have hfindable : ∀ cause ∈ (comparisonOf name (Signature.of first.declaration) group).allCauses,
      ∀ axis inside, cause.Occurs axis inside →
        Findable (OverloadedIn inputs (Signature.of first.declaration)) axis inside := by
    intro cause hcause axis inside hoccurs
    obtain ⟨c, hc, d, hd, hcause⟩ := exists_of_mem_allCauses hcause
    have hpaired := paired_of_mem_group hgroups hgroup hc hd
    have hbase := (paired_of_mem_group hgroups hgroup hc hfirst).1
    rw [← overloadedIn_congr hbase]
    exact hpaired.occurs hcause hoccurs
  have habsent : ∀ cause ∈ (comparisonOf name (Signature.of first.declaration) group).allCauses,
      ∀ axis, (∀ inside, Findable (OverloadedIn inputs (Signature.of first.declaration)) axis
        inside → False) → axis ∉ cause.fringe := by
    intro cause hcause axis hnever hmem
    obtain ⟨inside, hoccurs⟩ := Cause.mem_fringe_iff.mp hmem
    exact hnever inside (hfindable cause hcause axis inside hoccurs)
  refine ⟨fun cause hcause => ⟨?_, ?_⟩, fun cause hcause hoccurs => ?_, fun c hc d hd => ?_,
    fun hoverloaded cause hcause => ⟨?_, fun hoccurs => ?_⟩⟩
  · exact habsent cause hcause _ fun inside h => h.ne_receiver rfl
  · exact habsent cause hcause _ fun inside h => h.ne_unknown rfl
  · cases (hfindable cause hcause _ _ hoccurs).inside_of_name rfl
  · exact (paired_of_mem_group hgroups hgroup hc hd).kind_cases.imp_right fun hmixed =>
      ⟨hmixed, declarationVerdict_of_class_typeAlias hmixed⟩
  · exact habsent cause hcause _ fun inside h => (h.of_overloaded hoverloaded).1 rfl
  · cases ((hfindable cause hcause _ _ hoccurs).of_overloaded hoverloaded).2 rfl

/-! ### The comparisons of a run -/

/-- The comparison is that of a group with several contributions, in a container that the merge
comes to. -/
structure ComparedIn (limit : Nat) (libraries : List TargetLibrary) (container : QualifiedName)
    (inputs : List TargetInput) (group : List Contribution) (compared : Comparison) : Prop where
  reached : ∃ levels, Reached limit libraries (levels + 1) container inputs
  grouped : ∃ groups, groupContributions container inputs = .ok groups ∧ group ∈ groups
  several : 1 < group.length
  eq : ∃ first ∈ group, compared =
    comparisonOf (container.child first.declaration.name) (Signature.of first.declaration) group

/-- Each comparison that comes of merging a container is that of a group, there or further
inside. -/
theorem Reached.exists_comparedIn {entries : List Entry} {comparisons : List Comparison}
    (h : Reached limit libraries levels container inputs)
    (hfound : (containerEntries maker limit levels container inputs).result =
      .ok (entries, comparisons)) (hcompared : compared ∈ comparisons) :
    ∃ container inputs group, ComparedIn limit libraries container inputs group compared := by
  induction levels generalizing container inputs entries comparisons with
  | zero => cases hfound
  | succ levels ih =>
    obtain ⟨below, groups, hlevels, hgroups, hentries⟩ := containerEntries_eq_ok_iff.mp hfound
    obtain rfl : levels = below := Nat.succ.inj hlevels
    refine groupEntries_induction
      (motive := fun some _ comparisons => some ⊆ groups → compared ∈ comparisons →
        ∃ container inputs group, ComparedIn limit libraries container inputs group compared)
      (fun _ => nofun) ?_ (ne_nil_of_groupContributions hgroups) hentries (List.Subset.refl _)
      hcompared
    intro first rest others entry here entries comparisons hentry hothers hsubset hmem
    obtain ⟨hgroup, hsubset⟩ := List.cons_subset.mp hsubset
    rw [hentry.compared_eq, hentry.name_eq, hentry.signature_eq, List.append_assoc,
      List.mem_append, List.mem_append] at hmem
    rcases hmem with hself | hmembers | hlater
    · obtain ⟨hseveral, heq⟩ := mem_compareGroup_iff.mp hself
      exact ⟨container, inputs, first :: rest, ⟨levels, h⟩, ⟨groups, hgroups, hgroup⟩, hseveral,
        first, List.mem_cons_self, heq⟩
    · by_cases hclasses : ∀ c ∈ first :: rest, c.declaration.isClass = true
      · rcases groupMembers_cases (containerEntries maker limit levels)
          (container.child first.declaration.name) (first :: rest) with hnone | hfound
        · rw [hnone] at hmembers
          cases hmembers
        · exact ih (h.members hgroups hgroup hclasses) hfound hmembers
      · rw [groupMembers, if_neg (mt List.all_eq_true.mp hclasses)] at hmembers
        cases hmembers
    · exact hothers hsubset hlater

/-- Each comparison of a run is that of a group. -/
theorem exists_comparedIn (h : mergeLibraries maker options libraries = .ok result)
    (hcompared : compared ∈ result.report.comparisons) :
    ∃ container inputs group,
      ComparedIn options.maxNestingDepth libraries container inputs group compared := by
  obtain ⟨_, hresult, -, hcomparisons⟩ :=
    mergeLibraries_eq_ok maker options (nodup_targets_of_mergeLibraries h)
  obtain rfl := Except.ok.inj (h.symm.trans hresult)
  rw [hcomparisons, packagesOf] at hcompared
  obtain ⟨_, hpackage, hcompared⟩ := List.mem_flatMap.mp hcompared
  obtain ⟨⟨name, inputs⟩, hinputs, rfl⟩ := List.mem_map.mp hpackage
  rw [packageOf] at hcompared
  split at hcompared
  · rename_i entries comparisons hfound
    exact (Reached.package hinputs).exists_comparedIn hfound hcompared
  · cases hcompared

/-- What pairing rules out never shows up in the report. Each comparison is that of a group of a
container, and in none of its causes there is a difference in the receiver or an unknown one, or a
difference in the name other than that of a parameter. The kinds compared are equal, or they are a
class and a type alias and nothing but the kind of class is named. And if the comparison is that of
a function that some target overloads in the container, then there is no difference in the number of
parameters or in their types. -/
theorem mergeLibraries_rulesOut (h : mergeLibraries maker options libraries = .ok result) :
    ∀ compared ∈ result.report.comparisons, ∃ container inputs group,
      ComparedIn options.maxNestingDepth libraries container inputs group compared ∧
        RulesOut inputs group compared := by
  intro compared hcompared
  obtain ⟨container, inputs, group, hin⟩ := exists_comparedIn h hcompared
  obtain ⟨groups, hgroups, hgroup⟩ := hin.grouped
  obtain ⟨first, hfirst, rfl⟩ := hin.eq
  exact ⟨container, inputs, group, hin, rulesOut_comparisonOf hgroups hgroup hfirst _⟩

/-- Two targets with one function that the first target overloads and the second one declares
differently, and with a class that is an alias for the second one. -/
def lidLibraries : List TargetLibrary :=
  [⟨⟨"js"⟩, [⟨⟨"p"⟩, [getFunction ["Int"], getFunction [], plainClass "Lid" []]⟩]⟩,
    ⟨⟨"jvm"⟩, [⟨⟨"p"⟩,
      [.function { name := ⟨"get"⟩ } none [{ name := ⟨"index"⟩, type := ⟨⟨"Int"⟩, [], false⟩ }]
          ⟨⟨"Text"⟩, [], false⟩,
        .typeAlias { name := ⟨"Lid"⟩ } ⟨⟨"Text"⟩, [], false⟩ ⟨⟨"Text"⟩, [], false⟩]⟩]⟩]

/-- The overload differs in the name of a parameter and in the type of the result, and of the class
and the alias nothing but the kind of class is named. -/
theorem mergeLibraries_rulesOut_lidLibraries :
    ∃ result, mergeLibraries .standard {} lidLibraries = .ok result ∧
      result.report.comparisons.map (fun compared => (compared.name, compared.verdict)) =
        [(⟨"p.get"⟩, .fail (.composite .function [.leaf .returnType,
            .composite .parameterList [.parameter 0 [.leaf .qualifiedName]]])),
          (⟨"p.Lid"⟩, .fail (.composite .class [.leaf .classKind]))] ∧
      ∀ compared ∈ result.report.comparisons, ∃ container inputs group,
        ComparedIn 64 lidLibraries container inputs group compared ∧
          RulesOut inputs group compared := by
  obtain ⟨result, hresult, -⟩ :=
    mergeLibraries_eq_ok .standard {} (show (lidLibraries.map TargetLibrary.target).Nodup by decide)
  have hverdicts : (mergeLibraries .standard {} lidLibraries).toOption.map
      (fun result => result.report.comparisons.map fun compared =>
        (compared.name, compared.verdict)) =
        some [(⟨"p.get"⟩, .fail (.composite .function [.leaf .returnType,
            .composite .parameterList [.parameter 0 [.leaf .qualifiedName]]])),
          (⟨"p.Lid"⟩, .fail (.composite .class [.leaf .classKind]))] := rfl
  rw [hresult] at hverdicts
  exact ⟨result, hresult, Option.some.inj hverdicts, mergeLibraries_rulesOut hresult⟩

end DeclMerge
