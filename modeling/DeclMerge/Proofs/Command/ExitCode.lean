import DeclMerge.Command.Basic
import DeclMerge.Proofs.Library.RoundTrip
import DeclMerge.Proofs.Merge.Completeness

/-!
# Exit codes

The command ends with zero only if its report has no errors. Whatever was left out of the merged
library or the hierarchy has left an error in the report, so that code stands for a complete merge.

## Main results

* `Command.mergeInputs_eq_ok_iff` — when a run of the command has a result
* `Command.mapM_libraryOf_written` — libraries are read from the files they were written to
* `Command.keepsEverything_of_exitCode_eq_zero` — zero means that nothing was left out
-/

namespace DeclMerge

theorem Report.exitCode_eq_zero_iff {report : Report} :
    report.exitCode = 0 ↔ report.errors = [] := by
  simp [exitCode, hasErrors]

namespace Command

variable {read : String → Option String} {arguments : Arguments} {result : MergeResult}

/-- A run has a result if the options and all libraries can be read and merged. -/
theorem mergeInputs_eq_ok_iff :
    mergeInputs read arguments = .ok result ↔
      ∃ options libraries, optionsOf read arguments = .ok options ∧
        arguments.targets.mapM (libraryOf read) = .ok libraries ∧
          mergeLibraries .standard options libraries = .ok result := by
  unfold mergeInputs
  rw [bind_eq_ok_iff]
  constructor
  · rintro ⟨options, hoptions, h⟩
    obtain ⟨libraries, hlibraries, h⟩ := bind_eq_ok_iff.mp h
    split at h
    · rename_i hmerged
      cases h
      exact ⟨options, libraries, hoptions, hlibraries, hmerged⟩
    · cases h
  · rintro ⟨options, libraries, hoptions, hlibraries, hmerged⟩
    refine ⟨options, hoptions, bind_eq_ok_iff.mpr ⟨libraries, hlibraries, ?_⟩⟩
    rw [hmerged]
    rfl

/-- Libraries that were written to files are read from them. -/
theorem mapM_libraryOf_written {libraries : List TargetLibrary} {pathOf : Target → String}
    (hnesting : ∀ library ∈ libraries, library.toJson.nesting ≤ Json.maxNesting)
    (hread : ∀ library ∈ libraries,
      read (pathOf library.target) = some library.toJson.compact) :
    (libraries.map fun library => (⟨library.target, pathOf library.target⟩ : TargetPath)).mapM
      (libraryOf read) = .ok libraries := by
  refine mapM_eq_ok_iff.mpr (List.forall₂_map_left_iff.mpr (List.forall₂_same.mpr ?_))
  intro library hlibrary
  have hparsed :=
    (TargetLibrary.read_of_reordered (hnesting library hlibrary) (.refl library.toJson)).1
  simp only [libraryOf, hread library hlibrary, hparsed]

/-- When the command has a report and ends with zero, nothing was left out: every package of every
library that it read is merged, with all declarations, and so on for the members of classes; and
with overrides every merged class has a scope. -/
theorem keepsEverything_of_exitCode_eq_zero (read : String → Option String)
    (arguments : Arguments) {report : Report} (h : run read arguments = .ok report)
    (hcode : report.exitCode = 0) :
    ∃ options libraries result, optionsOf read arguments = .ok options ∧
      arguments.targets.mapM (libraryOf read) = .ok libraries ∧
      mergeInputs read arguments = .ok result ∧ result.report = report ∧
      KeepsEverything options libraries result := by
  unfold run at h
  cases hresult : mergeInputs read arguments with
  | error error => simp [hresult, Except.map] at h
  | ok result =>
    obtain rfl : result.report = report := by simpa [hresult, Except.map] using h
    obtain ⟨options, libraries, hoptions, hlibraries, hmerged⟩ := mergeInputs_eq_ok_iff.mp hresult
    exact ⟨options, libraries, result, hoptions, hlibraries, rfl, rfl,
      keepsEverything_of_errors_eq_nil hmerged (Report.exitCode_eq_zero_iff.mp hcode)⟩

/-- The name of the file for the library of a target. -/
def fileOf (target : Target) : String := target.name ++ ".json"

/-- The files with two libraries that disagree about a property and overload a function. -/
def crateFiles (path : String) : Option String :=
  (crateLibraries.find? fun library => fileOf library.target = path).map
    fun library => library.toJson.compact

/-- The disagreement and the overload are no errors, and both libraries are merged completely. -/
theorem keepsEverything_crateFiles :
    ∃ arguments report result,
      Arguments.ofList? ["-t", "js=js.json", "--target", "jvm=jvm.json"] = .ok arguments ∧
      run crateFiles arguments = .ok report ∧ report.exitCode = 0 ∧
      report.divergences.length = 1 ∧ result.report = report ∧
      KeepsEverything {} crateLibraries result := by
  let arguments : Arguments := {
    targets := [⟨⟨"js"⟩, "js.json"⟩, ⟨⟨"jvm"⟩, "jvm.json"⟩]
    config := none
    format := .text
    output := none
    noParallel := false
    noOverrides := false
    noColor := false }
  have harguments : Arguments.ofList? ["-t", "js=js.json", "--target", "jvm=jvm.json"] =
      .ok arguments := by rfl
  have htargets : arguments.targets =
      crateLibraries.map fun library => ⟨library.target, fileOf library.target⟩ := by decide
  have hread : ∀ library ∈ crateLibraries,
      crateFiles (fileOf library.target) = some library.toJson.compact := by
    have hfind : ∀ library ∈ crateLibraries,
        (crateLibraries.find? fun other => fileOf other.target = fileOf library.target) =
          some library := by decide
    intro library hlibrary
    rw [crateFiles, hfind library hlibrary, Option.map_some]
  have hlibraries : arguments.targets.mapM (libraryOf crateFiles) = .ok crateLibraries := by
    rw [htargets]
    exact mapM_libraryOf_written (by decide) hread
  have hdistinct : (crateLibraries.map TargetLibrary.target).Nodup := by decide
  obtain ⟨result, hmerged, -⟩ := mergeLibraries_eq_ok .standard {} hdistinct
  have hcounts : (mergeLibraries .standard {} crateLibraries).toOption.map
      (fun result => (result.report.errors, result.report.divergences.length)) =
        some ([], 1) := by decide +kernel
  rw [hmerged] at hcounts
  obtain ⟨herrors, hdiverging⟩ := Prod.mk.inj (Option.some.inj hcounts)
  have hresult : mergeInputs crateFiles arguments = .ok result :=
    mergeInputs_eq_ok_iff.mpr ⟨{}, crateLibraries, rfl, hlibraries, hmerged⟩
  have hrun : run crateFiles arguments = .ok result.report := by rw [run, hresult]; rfl
  have hcode : result.report.exitCode = 0 := Report.exitCode_eq_zero_iff.mpr herrors
  obtain ⟨options, libraries, result', hoptions, hlibraries', hresult', hreport, hkept⟩ :=
    keepsEverything_of_exitCode_eq_zero crateFiles arguments hrun hcode
  obtain rfl := Except.ok.inj (hlibraries.symm.trans hlibraries')
  obtain rfl : ({} : Options) = options := Except.ok.inj hoptions
  exact ⟨arguments, _, result', harguments, hrun, hcode, hdiverging, hreport, hkept⟩

end Command

end DeclMerge
