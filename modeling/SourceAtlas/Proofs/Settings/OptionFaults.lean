/-
# Faults of an options file

A file of options is read as YAML, and what it sets is then made into texts and numbers. A file that
is not there, is no YAML or holds no mapping is a fault of the configuration. What else goes wrong
is not: bytes that are no text, a scalar that cannot be made, or a value that has not the type of
its option. So a load reports everything exactly for files with which nothing of this kind is wrong.
-/

import Mathlib.Data.List.Basic
import SourceAtlas.Proofs.Settings.ConfigReading

namespace SourceAtlas.Settings

open CommandLine

/-- The keys that are set to lists of texts. -/
def listKeys : List String :=
  ["file_patterns", "ignore_patterns", "internal_packages", "possible_extensions"]

/-- A setting with items that can all be shown. The only ones that cannot be have a whole number
with too many digits in them. -/
def Setting.HasTexts (s : Setting) : Prop :=
  ∃ items, s.items = some items ∧ ∀ item ∈ items, item.hasLongNumber = false

/-- The whole number that a value is or holds. A double is cut toward zero, and an infinite one
holds none; a text or bytes hold the number that they spell. -/
inductive HoldsWhole : Value → Int → Prop
  | bool (b : Bool) : HoldsWhole (.bool b) (if b then 1 else 0)
  | int (n : Int) : HoldsWhole (.number (.int n)) n
  | float {x : Float} (number : x.isNaN = false) (finite : x.isInf = false) :
      HoldsWhole (.number (.float x)) (Number.truncateFloat x)
  | text {s : String} {n : Int} (read : Number.wholeOfText s = .ok n) : HoldsWhole (.text s) n
  | bytes {b : List UInt8} {n : Int} (read : Number.wholeOfBytes b = .ok n) :
      HoldsWhole (.bytes b) n

/-- Every option that is set has a value of its type. -/
structure WellTyped (find : String → Option Setting) : Prop where
  lists : ∀ key ∈ listKeys, ∀ s, find key = some s → s.value ≠ .null → s.HasTexts
  packages : ∀ s, find "internal_package_prefix" = some s → s.value.isTruthy = true →
    s.value.hasLongNumber = false
  workers : ∀ s, find "max_workers" = some s → s.value ≠ .null → ∃ n, HoldsWhole s.value n

/-- A step that succeeds under a condition, and whose faults are none of the configuration. -/
structure SucceedsIff {α : Type} (step : Except OptionFault α) (condition : Prop) : Prop where
  succeeds : (∃ result, step = .ok result) ↔ condition
  unreported : ∀ fault, step = .error fault → optionFaultKind fault ≠ .configuration

section Steps

variable {α β : Type}

theorem succeedsIff_ok {condition : Prop} (result : α) (holds : condition) :
    SucceedsIff (.ok result) condition where
  succeeds := ⟨fun _ => holds, fun _ => ⟨result, rfl⟩⟩
  unreported := by
    intro fault failed
    cases failed

theorem succeedsIff_error {condition : Prop} {fault : OptionFault}
    (kind : optionFaultKind fault ≠ .configuration) (never : ¬ condition) :
    SucceedsIff (.error fault : Except OptionFault α) condition where
  succeeds := by
    constructor
    · rintro ⟨result, absurd⟩
      cases absurd
    · intro holds
      exact absurd holds never
  unreported := by
    intro other same
    cases same
    exact kind

theorem SucceedsIff.congr {step : Except OptionFault α} {condition other : Prop}
    (this : SucceedsIff step condition) (same : condition ↔ other) : SucceedsIff step other where
  succeeds := this.succeeds.trans same
  unreported := this.unreported

/-- One step after another succeeds if both do. -/
theorem SucceedsIff.bind {first : Except OptionFault α} {next : α → Except OptionFault β}
    {condition later : Prop} (this : SucceedsIff first condition)
    (onward : ∀ result, SucceedsIff (next result) later) :
    SucceedsIff (first.bind next) (condition ∧ later) := by
  cases first with
  | error fault =>
      apply succeedsIff_error (this.unreported fault rfl)
      rintro ⟨holds, -⟩
      obtain ⟨result, absurd⟩ := this.succeeds.mpr holds
      cases absurd
  | ok result =>
      have holds : condition := this.succeeds.mp ⟨result, rfl⟩
      exact (onward result).congr (and_iff_right holds).symm

theorem SucceedsIff.map {step : Except OptionFault α} {condition : Prop}
    (this : SucceedsIff step condition) (f : α → β) : SucceedsIff (step.map f) condition := by
  have both := this.bind fun result => succeedsIff_ok (f result) trivial
  rw [and_true] at both
  cases step <;> exact both

theorem succeedsIff_mapM {f : α → Except OptionFault β} {condition : α → Prop}
    (each : ∀ item, SucceedsIff (f item) (condition item)) (items : List α) :
    SucceedsIff (items.mapM f) (∀ item ∈ items, condition item) := by
  induction items with
  | nil => exact succeedsIff_ok [] (List.forall_mem_nil _)
  | cons item rest ih =>
      rw [List.mapM_cons, List.forall_mem_cons]
      apply (each item).bind
      intro result
      exact ih.map fun results => result :: results

end Steps

/-! ## The steps that make options -/

theorem succeedsIff_shown (v : Value) : SucceedsIff (shown v) (v.hasLongNumber = false) := by
  rw [shown]
  cases v.hasLongNumber with
  | true => exact succeedsIff_error (by decide) (by decide)
  | false => exact succeedsIff_ok v.display rfl

theorem succeedsIff_textItems (s : Setting) : SucceedsIff (textItems s) s.HasTexts := by
  rw [textItems, Setting.HasTexts]
  cases s.items with
  | none => exact succeedsIff_error (by decide) (by simp)
  | some items =>
      apply (succeedsIff_mapM succeedsIff_shown items).congr
      simp

theorem succeedsIff_mapError_numeral (step : Except Number.NumeralFault Int) :
    SucceedsIff (step.mapError .numeral) (∃ n, step = .ok n) := by
  cases step with
  | error fault =>
      apply succeedsIff_error
      · intro absurd
        cases absurd
      · simp
  | ok n => exact succeedsIff_ok n ⟨n, rfl⟩

theorem succeedsIff_wholeNumber (v : Value) :
    SucceedsIff (wholeNumber v) (∃ n, HoldsWhole v n) := by
  cases v with
  | bool b => exact succeedsIff_ok _ ⟨_, .bool b⟩
  | number x =>
      cases x with
      | int n => exact succeedsIff_ok n ⟨n, .int n⟩
      | float x =>
          rw [wholeNumber]
          cases number : x.isNaN with
          | true =>
              apply succeedsIff_error (by decide)
              rintro ⟨n, _ | _ | ⟨whole, -⟩⟩
              cases number.symm.trans whole
          | false =>
              cases finite : x.isInf with
              | true =>
                  apply succeedsIff_error (by decide)
                  rintro ⟨n, _ | _ | ⟨-, bounded⟩⟩
                  cases finite.symm.trans bounded
              | false => exact succeedsIff_ok _ ⟨_, .float number finite⟩
  | text s =>
      apply (succeedsIff_mapError_numeral (Number.wholeOfText s)).congr
      constructor
      · rintro ⟨n, read⟩
        exact ⟨n, .text read⟩
      · rintro ⟨n, holds⟩
        cases holds with
        | text read => exact ⟨n, read⟩
  | bytes b =>
      apply (succeedsIff_mapError_numeral (Number.wholeOfBytes b)).congr
      constructor
      · rintro ⟨n, read⟩
        exact ⟨n, .bytes read⟩
      · rintro ⟨n, holds⟩
        cases holds with
        | bytes read => exact ⟨n, read⟩
  | _ =>
      apply succeedsIff_error (by decide)
      rintro ⟨n, holds⟩
      cases holds

theorem unlessNull?_of_null {s : Setting} (null : s.value = .null) : s.unlessNull? = none := by
  rw [Setting.unlessNull?, null]

theorem unlessNull?_of_ne_null {s : Setting} (set : s.value ≠ .null) :
    s.unlessNull? = some s := by
  rw [Setting.unlessNull?]
  cases value : s.value with
  | null => exact absurd value set
  | _ => rfl

/-- A step that is made for what a key is set to, unless that is null. -/
theorem succeedsIff_unlessNull {α : Type} {make : Setting → Except OptionFault α}
    {condition : Setting → Prop} (each : ∀ s, SucceedsIff (make s) (condition s))
    (setting : Option Setting) (before : α) :
    SucceedsIff ((setting.bind Setting.unlessNull?).elim (.ok before) make)
      (∀ s, setting = some s → s.value ≠ .null → condition s) := by
  cases setting with
  | none =>
      apply succeedsIff_ok
      intro s absurd
      cases absurd
  | some s =>
      rw [Option.bind_some]
      by_cases null : s.value = .null
      · rw [unlessNull?_of_null null]
        apply succeedsIff_ok
        intro t same set
        cases same
        exact absurd null set
      · rw [unlessNull?_of_ne_null null]
        apply (each s).congr
        constructor
        · intro holds t same _
          cases same
          exact holds
        · intro all
          exact all s rfl null

theorem succeedsIff_listSetting (setting : Option Setting) (before : List String) :
    SucceedsIff (listSetting setting before)
      (∀ s, setting = some s → s.value ≠ .null → s.HasTexts) := by
  have shape : listSetting setting before =
      (setting.bind Setting.unlessNull?).elim (.ok before) textItems := by
    rw [listSetting]
    cases setting.bind Setting.unlessNull? <;> rfl
  rw [shape]
  exact succeedsIff_unlessNull succeedsIff_textItems setting before

/-- The start of internal names that a key is set to. -/
def packageSetting (setting : Option Setting) : Except OptionFault (Option String) :=
  setting.elim (.ok none) fun s =>
    if s.value.isTruthy then (shown s.value).map some else .ok none

theorem succeedsIff_packageSetting (setting : Option Setting) :
    SucceedsIff (packageSetting setting)
      (∀ s, setting = some s → s.value.isTruthy = true → s.value.hasLongNumber = false) := by
  cases setting with
  | none =>
      apply succeedsIff_ok
      intro s absurd
      cases absurd
  | some s =>
      rw [packageSetting, Option.elim_some]
      cases truthy : s.value.isTruthy with
      | false =>
          apply succeedsIff_ok
          intro t same also
          cases same
          cases truthy.symm.trans also
      | true =>
          apply ((succeedsIff_shown s.value).map some).congr
          constructor
          · intro short t same _
            cases same
            exact short
          · intro all
            exact all s rfl truthy

/-- The number of workers that a key is set to. -/
def workerSetting (setting : Option Setting) (before : Int) : Except OptionFault Int :=
  (setting.bind Setting.unlessNull?).elim (.ok before) fun s => (wholeNumber s.value).map (max 1)

theorem succeedsIff_workerSetting (setting : Option Setting) (before : Int) :
    SucceedsIff (workerSetting setting before)
      (∀ s, setting = some s → s.value ≠ .null → ∃ n, HoldsWhole s.value n) := by
  apply succeedsIff_unlessNull
  intro s
  exact (succeedsIff_wholeNumber s.value).map (max 1)

/-- The options are made step by step, and a step that fails ends it. -/
theorem ofSettings_eq (find : String → Option Setting) :
    Options.ofSettings find =
      (listSetting (find "file_patterns") []).bind fun filePatterns =>
      (listSetting (find "ignore_patterns") []).bind fun ignorePatterns =>
      (listSetting (find "internal_packages") []).bind fun internalPackages =>
      (listSetting (find "possible_extensions") defaultExtensions).bind fun extensions =>
      (packageSetting (find "internal_package_prefix")).bind fun internalPrefix =>
      (workerSetting (find "max_workers") 1).map fun workers =>
        { filePatterns, ignorePatterns, internalPackages, internalPrefix, extensions
          debug := ((find "debug").map fun s => s.value.isTruthy).getD false
          workers } := by
  rw [Options.ofSettings]
  dsimp only [bind, pure, Except.pure]
  congr
  funext filePatterns
  congr
  funext ignorePatterns
  congr
  funext internalPackages
  congr
  funext extensions
  rw [packageSetting, workerSetting]
  cases find "internal_package_prefix" with
  | none =>
      cases (find "max_workers").bind Setting.unlessNull? with
      | none => rfl
      | some w =>
          dsimp only [Option.elim_some]
          cases wholeNumber w.value <;> rfl
  | some s =>
      dsimp only [Option.elim_some]
      cases (find "max_workers").bind Setting.unlessNull? with
      | none => cases s.value.isTruthy <;> rfl
      | some w =>
          dsimp only [Option.elim_some]
          cases wholeNumber w.value <;> cases s.value.isTruthy <;> rfl

theorem succeedsIff_ofSettings (find : String → Option Setting) :
    SucceedsIff (Options.ofSettings find) (WellTyped find) := by
  have steps := (succeedsIff_listSetting (find "file_patterns") []).bind fun filePatterns =>
    (succeedsIff_listSetting (find "ignore_patterns") []).bind fun ignorePatterns =>
    (succeedsIff_listSetting (find "internal_packages") []).bind fun internalPackages =>
    (succeedsIff_listSetting (find "possible_extensions") defaultExtensions).bind
      fun extensions =>
    (succeedsIff_packageSetting (find "internal_package_prefix")).bind fun internalPrefix =>
    (succeedsIff_workerSetting (find "max_workers") 1).map fun workers =>
      (⟨filePatterns, ignorePatterns, internalPackages, internalPrefix, extensions,
        ((find "debug").map fun s => s.value.isTruthy).getD false, workers⟩ : Options)
  rw [ofSettings_eq]
  apply steps.congr
  constructor
  · rintro ⟨files, ignored, internal, extensions, packages, workers⟩
    refine ⟨?_, packages, workers⟩
    simp only [listKeys, List.forall_mem_cons]
    exact ⟨files, ignored, internal, extensions, List.forall_mem_nil _⟩
  · intro typed
    have lists := typed.lists
    simp only [listKeys, List.forall_mem_cons] at lists
    obtain ⟨files, ignored, internal, extensions, -⟩ := lists
    exact ⟨files, ignored, internal, extensions, typed.packages, typed.workers⟩

theorem readYaml_eq_error_cases {disk : Disk} {path : String} {fault : OptionsFileFault}
    (failed : readYaml disk path = .error fault) :
    (∃ missing, fault = .unreadable path missing) ∨ ∃ refused, fault = .yaml path refused := by
  rw [readYaml] at failed
  cases found : disk.readBytes path with
  | error missing =>
      rw [found] at failed
      cases failed
      exact .inl ⟨missing, rfl⟩
  | ok bytes =>
      simp only [found] at failed
      cases read : Yaml.read (Text.textPieces bytes).1 (Text.textPieces bytes).2 with
      | error refused =>
          rw [read] at failed
          cases failed
          exact .inr ⟨refused, rfl⟩
      | ok document =>
          rw [read] at failed
          cases failed

theorem yamlFaultKind_eq_configuration_iff {fault : Yaml.YamlFault} :
    yamlFaultKind fault = .configuration ↔ fault = .malformed := by
  cases fault with
  | scalar fault => cases fault <;> simp [yamlFaultKind, scalarFaultKind]
  | _ => simp [yamlFaultKind]

/-- A load gives options, or a fault that is one of the configuration. -/
def Reports (outcome : Except OptionsFileFault Options) : Prop :=
  (∃ options, outcome = .ok options) ∨
    ∃ fault, outcome = .error fault ∧ (RunFault.options fault).kind = .configuration

theorem reports_ok (options : Options) : Reports (.ok options) := .inl ⟨options, rfl⟩

theorem reports_error_iff {fault : OptionsFileFault} :
    Reports (.error fault) ↔ (RunFault.options fault).kind = .configuration := by
  constructor
  · rintro (⟨options, absurd⟩ | ⟨other, same, kind⟩)
    · cases absurd
    · cases same
      exact kind
  · intro kind
    exact .inr ⟨fault, rfl, kind⟩

/-- The values that a mapping sets decide whether a load reports what is wrong with them. -/
theorem reports_ofSettings_iff (find : String → Option Setting) :
    Reports ((Options.ofSettings find).mapError .option) ↔ WellTyped find := by
  obtain ⟨succeeds, unreported⟩ := succeedsIff_ofSettings find
  rw [← succeeds]
  cases made : Options.ofSettings find with
  | error fault =>
      apply iff_of_false
      · intro reported
        exact unreported fault made (reports_error_iff.mp reported)
      · rintro ⟨options, absurd⟩
        cases absurd
  | ok options => exact iff_of_true (reports_ok options) ⟨options, rfl⟩

/-- **What a load of options reports.** Options, or a fault of the configuration, come from exactly
the files with which nothing is wrong beyond the YAML, and which, as far as they hold a mapping, set
each option to a value of its type. -/
theorem loadOptions_reports_iff (disk : Disk) (path : String) :
    ((∃ options, loadOptions disk path = .ok options) ∨
        ∃ fault, loadOptions disk path = .error fault ∧
          (RunFault.options fault).kind = .configuration) ↔
      (∀ fault, readYaml disk path = .error (.yaml path fault) → fault = .malformed) ∧
        ∀ document entries, readYaml disk path = .ok (some document) →
          document.rootEntries? = some entries → WellTyped (settingIn? document entries) := by
  change Reports (loadOptions disk path) ↔ _
  rw [loadOptions]
  cases read : readYaml disk path with
  | error fault =>
      change Reports (.error fault) ↔ _
      rw [reports_error_iff]
      rcases readYaml_eq_error_cases read with ⟨missing, rfl⟩ | ⟨refused, rfl⟩
      · simp [RunFault.kind]
      · simp [RunFault.kind, yamlFaultKind_eq_configuration_iff]
  | ok found =>
      cases found with
      | none =>
          apply iff_of_true (reports_ok _)
          simp
      | some document =>
          dsimp only [bind, Except.bind]
          cases root : document.rootEntries? with
          | none =>
              apply iff_of_true
              · dsimp only
                split
                · exact reports_error_iff.mpr rfl
                · exact reports_ok _
              · simp only [reduceCtorEq, false_implies, implies_true, true_and, Except.ok.injEq,
                  Option.some.injEq]
                rintro _ entries rfl other
                cases root.symm.trans other
          | some entries =>
              apply (reports_ofSettings_iff (settingIn? document entries)).trans
              simp only [reduceCtorEq, false_implies, implies_true, true_and, Except.ok.injEq,
                Option.some.injEq]
              constructor
              · rintro typed _ others rfl also
                cases root.symm.trans also
                exact typed
              · intro typed
                exact typed document entries rfl root

/-- A file that sets a list of patterns to a number. -/
def countDisk : Disk where
  root := .directory [("options.yaml", .file "file_patterns: 5\n".toUTF8.toList)]
  workingDirectory := "/"

/-- A number in the place of a list is not reported as a fault of the configuration. -/
theorem loadOptions_countDisk :
    ∃ fault, loadOptions countDisk "/options.yaml" = .error fault ∧
      (RunFault.options fault).kind = .unforeseen := by
  apply exists_error_of_kind
  decide +kernel

end SourceAtlas.Settings
