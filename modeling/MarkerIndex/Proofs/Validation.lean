import MarkerIndex.Config.Validation
import MarkerIndex.Proofs.GeneratedSource
import MarkerIndex.Proofs.PathText
import MarkerIndex.Proofs.Registry
/-!
From configurations to settings, and back. A configuration is accepted just when all its entries
fit, and what is reported otherwise is the first entry that does not. Settings are written back
entry by entry; the ones that come from a configuration are just those that are read from what they
are written as, so that nothing is left to be made uniform in them.
-/

namespace MarkerIndex

namespace Text

/-- Nothing is left of a text without blanks at its ends just when all of it is blank. -/
theorem isEmpty_trim_iff (s : String) :
    (trim s).isEmpty = true ↔ ∀ c ∈ s.toList, isBlank c = true := by
  have hnil : trimChars s.toList = [] ↔ ∀ c ∈ s.toList, isBlank c = true := by
    constructor
    · intro h
      obtain ⟨before, after, hchars, hbefore, hafter⟩ := exists_trimChars s.toList
      rw [hchars, h, List.nil_append]
      exact List.forall_mem_append.mpr ⟨hbefore, hafter⟩
    · intro h
      have htrim := trimChars_blanks_append h []
      rwa [List.append_nil] at htrim
  rw [String.isEmpty_iff, ← hnil, trim, ← String.toList_eq_nil_iff, String.toList_ofList]

end Text

namespace Grammar

variable {w : String}

theorem trim_of_isName (h : isName w = true) : Text.trim w = w := by
  refine Text.trim_of_unblank fun c member => Bool.eq_false_iff.mpr fun hblank => ?_
  obtain ⟨hstart, hcontinue, hmark, -⟩ := Text.isBlank_apart hblank
  exact (isWord_of_isSegment (Or.inl h)).not_mem hstart hcontinue hmark member

/-- A name is read from its text. -/
theorem parseName_of_isName (h : isName w = true) : parseName w = .ok w := by
  have hword : Text.IsWord w := isWord_of_isSegment (Or.inl h)
  have hcuts : TokenTree.Cuts (w.toList ++ []) [] [.leaf .first (.word w)] :=
    TokenTree.Cuts.ofWord TokenTree.Cuts.skipped_nil hword trivial
  have hmark : (w.toList ++ []).head? ≠ some TokenTree.byteOrderMark := by
    obtain ⟨b, tail, hw, hb⟩ := Lexeme.exists_cons_of_isWord hword
    rw [hw, List.cons_append, List.head?_cons]
    rintro ⟨rfl⟩
    exact absurd hb (by decide +kernel)
  obtain ⟨found, htokens, hfound⟩ := hcuts.ofText hmark
  obtain ⟨p, more, rfl, hmore⟩ := TokenTree.unplacedAll_eq_leaf.mp hfound
  obtain rfl := TokenTree.unplacedAll_eq_nil.mp hmore
  rw [List.append_nil] at htokens
  rw [parseName, readText, htokens]
  exact readAll_of_reads fun _ => .bind (.name h p) (.refl _ _)

end Grammar

/-- A text that file names can be held against. -/
def Pattern.IsPattern (text : String) : Prop :=
  ∃ pattern, Pattern.ofText text = .ok pattern

namespace Config

/-- The entries of a configuration that may be at fault. -/
inductive Entry
  | registration
  | directive
  | module
  | container
  | fileName
  | ignore
  deriving DecidableEq

namespace Entry

/-- The entries in the order in which they are looked at. -/
def all : List Entry := [registration, directive, module, container, fileName, ignore]

/-- What an entry has to be. -/
def Fits (c : Config) : Entry → Prop
  | registration => ∃ p, ItemPath.parse? c.registration = some p
  | directive => ∃ p, ItemPath.parse? c.directive = some p
  | module => ∃ name, Grammar.parseName (Text.trim c.module) = .ok name
  | container => ∃ name, Grammar.parseName (Text.trim c.container) = .ok name
  | fileName => ∃ b ∈ c.fileName.toList, Text.isBlank b = false
  | ignore => ∀ text ∈ c.ignore, Pattern.IsPattern text

/-- The error says what is wrong with the entry: which key has which value, or where the first
pattern that is none goes wrong. -/
def Blamed (c : Config) : Entry → Error → Prop
  | registration, error => error = .configuration (.notAPath "markers.registration" c.registration)
  | directive, error => error = .configuration (.notAPath "markers.directive" c.directive)
  | module, error => error = .configuration (.notAName "output.namespace" c.module)
  | container, error => error = .configuration (.notAName "output.container" c.container)
  | fileName, error => error = .configuration .blankFileName
  | ignore, error => ∃ before text after problem, c.ignore = before ++ text :: after ∧
      (∀ earlier ∈ before, Pattern.IsPattern earlier) ∧ Pattern.ofText text = .error problem ∧
      error = .pattern problem

/-- What is done about an entry alone. -/
def check (c : Config) : Entry → Except Error Unit
  | registration => (fun _ => ()) <$> markerPath "markers.registration" c.registration
  | directive => (fun _ => ()) <$> markerPath "markers.directive" c.directive
  | module => (fun _ => ()) <$> declarableName "output.namespace" c.module
  | container => (fun _ => ()) <$> declarableName "output.container" c.container
  | fileName => checkFileName c.fileName
  | ignore => c.ignore.forM checkPattern

end Entry

variable {c : Config} {s : Settings} {error : Error}

theorem markerPath_eq_ok_iff {key value : String} {p : ItemPath} :
    markerPath key value = .ok p ↔ ItemPath.parse? value = some p := by
  unfold markerPath
  cases ItemPath.parse? value <;> simp

theorem declarableName_eq_ok_iff {key value name : String} :
    declarableName key value = .ok name ↔ Grammar.parseName (Text.trim value) = .ok name := by
  unfold declarableName
  cases Grammar.parseName (Text.trim value) <;> simp

theorem checkFileName_eq_ok_iff {name : String} :
    checkFileName name = .ok () ↔ ∃ b ∈ name.toList, Text.isBlank b = false := by
  unfold checkFileName
  rw [ite_eq_right_iff]
  rw [Text.isEmpty_trim_iff]
  simp

theorem checkPattern_eq_ok_iff {text : String} :
    checkPattern text = .ok () ↔ Pattern.IsPattern text := by
  unfold checkPattern Pattern.IsPattern
  cases Pattern.ofText text <;> simp

theorem checkPattern_eq_error_iff {text : String} :
    checkPattern text = .error error ↔
      ∃ problem, Pattern.ofText text = .error problem ∧ error = .pattern problem := by
  unfold checkPattern
  cases Pattern.ofText text <;> simp [eq_comm]

namespace Entry

theorem check_eq_ok_iff (entry : Entry) : entry.check c = .ok () ↔ entry.Fits c := by
  have hmap {α : Type} {x : Except Error α} : (fun _ => ()) <$> x = .ok () ↔ ∃ a, x = .ok a := by
    cases x <;> simp [Functor.map, Except.map]
  cases entry with
  | registration | directive => simp only [check, Fits, hmap, markerPath_eq_ok_iff]
  | module | container => simp only [check, Fits, hmap, declarableName_eq_ok_iff]
  | fileName => exact checkFileName_eq_ok_iff
  | ignore => simp only [check, Fits, Traversal.forM_eq_ok_iff, checkPattern_eq_ok_iff]

/-- An entry that does not fit is what the error is about. -/
theorem blamed_of_check (entry : Entry) (h : entry.check c = .error error) :
    entry.Blamed c error := by
  cases entry with
  | registration | directive =>
      simp only [check, markerPath] at h
      split at h <;> simp_all [Functor.map, Except.map, Blamed]
  | module | container =>
      simp only [check, declarableName] at h
      split at h <;> simp_all [Functor.map, Except.map, Blamed]
  | fileName =>
      simp only [check, checkFileName] at h
      split at h <;> simp_all [Blamed]
  | ignore =>
      obtain ⟨before, text, after, hsplit, hbefore, htext⟩ := Traversal.forM_eq_error_iff.mp h
      obtain ⟨problem, hproblem, rfl⟩ := checkPattern_eq_error_iff.mp htext
      exact ⟨before, text, after, problem, hsplit,
        fun earlier member => checkPattern_eq_ok_iff.mp (hbefore earlier member), hproblem, rfl⟩

theorem check_eq_error_iff (entry : Entry) :
    entry.check c = .error error ↔ ¬ entry.Fits c ∧ entry.Blamed c error := by
  constructor
  · intro h
    refine ⟨fun hfits => ?_, blamed_of_check entry h⟩
    rw [entry.check_eq_ok_iff.mpr hfits] at h
    cases h
  · rintro ⟨hfits, hblamed⟩
    obtain ⟨found, hfound⟩ : ∃ found, entry.check c = .error found := by
      cases hcheck : entry.check c with
      | error found => exact ⟨found, rfl⟩
      | ok _ => exact absurd (entry.check_eq_ok_iff.mp hcheck) hfits
    cases entry with
    | ignore =>
        obtain ⟨before, text, after, problem, hsplit, hbefore, htext, rfl⟩ := hblamed
        exact Traversal.forM_eq_error_iff.mpr ⟨before, text, after, hsplit,
          fun earlier member => checkPattern_eq_ok_iff.mpr (hbefore earlier member),
          checkPattern_eq_error_iff.mpr ⟨problem, htext, rfl⟩⟩
    -- Everywhere else an entry can be at fault in one way only.
    | _ => exact hfound.trans (congrArg _ ((blamed_of_check _ hfound).trans hblamed.symm))

end Entry

/-- Checking a configuration is checking its entries one after another. -/
theorem map_validate (c : Config) :
    c.validate.map (fun _ => ()) = Entry.all.forM (Entry.check c) := by
  change (fun _ => ()) <$> c.validate = _
  simp only [validate, Entry.all, List.forM, Entry.check, map_bind, map_pure, bind_map_left,
    bind_pure_unit]

/-- A configuration is accepted just when all its entries fit. -/
theorem exists_validate_iff (c : Config) :
    (∃ s, c.validate = .ok s) ↔ ∀ entry : Entry, entry.Fits c := by
  have hmap : (∃ s, c.validate = .ok s) ↔ c.validate.map (fun _ => ()) = .ok () := by
    simp [Traversal.map_eq_ok_iff]
  rw [hmap, map_validate, Traversal.forM_eq_ok_iff]
  have hall (entry : Entry) : entry ∈ Entry.all := by cases entry <;> decide
  exact ⟨fun h entry => entry.check_eq_ok_iff.mp (h entry (hall entry)),
    fun h entry _ => entry.check_eq_ok_iff.mpr (h entry)⟩

/-- What is reported is the first entry that does not fit. -/
theorem validate_eq_error_iff (c : Config) (error : Error) :
    c.validate = .error error ↔ ∃ before entry after, Entry.all = before ++ entry :: after ∧
      (∀ earlier ∈ before, earlier.Fits c) ∧ ¬ entry.Fits c ∧ entry.Blamed c error := by
  rw [← Traversal.map_eq_error_iff, map_validate, Traversal.forM_eq_error_iff]
  simp only [Entry.check_eq_ok_iff, Entry.check_eq_error_iff]

/-- The settings are what the entries say. -/
structure Says (c : Config) (s : Settings) : Prop where
  registration : ItemPath.parse? c.registration = some s.registration
  directive : ItemPath.parse? c.directive = some s.directive
  module : Grammar.parseName (Text.trim c.module) = .ok s.module
  container : Grammar.parseName (Text.trim c.container) = .ok s.container
  fileName : s.fileName = c.fileName ∧ Entry.fileName.Fits c
  crateRoot : s.crateRoot = c.crateRoot
  ignore : s.ignore = c.ignore ∧ Entry.ignore.Fits c

theorem validate_eq_ok_iff : c.validate = .ok s ↔ c.Says s := by
  simp only [validate, Traversal.bind_eq_ok_iff, markerPath_eq_ok_iff, declarableName_eq_ok_iff]
  constructor
  · rintro ⟨registration, hregistration, directive, hdirective, module, hmodule,
      container, hcontainer, u, hfile, v, hpatterns, h⟩
    obtain rfl := Except.ok.inj h
    exact ⟨hregistration, hdirective, hmodule, hcontainer,
      ⟨rfl, Entry.fileName.check_eq_ok_iff.mp hfile⟩,
      rfl, rfl, Entry.ignore.check_eq_ok_iff.mp hpatterns⟩
  · rintro ⟨hregistration, hdirective, hmodule, hcontainer, ⟨hname, hfile⟩, hroot,
      hignore, hpatterns⟩
    refine ⟨_, hregistration, _, hdirective, _, hmodule, _, hcontainer,
      (), Entry.fileName.check_eq_ok_iff.mpr hfile, (),
      Entry.ignore.check_eq_ok_iff.mpr hpatterns, ?_⟩
    rw [← hname, ← hroot, ← hignore]
    rfl

end Config

/-- The configuration that says what the settings are. Marker paths are written with double colons
between their segments, and all the rest is written as it is. -/
def Settings.toConfig (s : Settings) : Config where
  registration := s.registration.display
  directive := s.directive.display
  module := s.module
  container := s.container
  fileName := s.fileName
  crateRoot := s.crateRoot
  ignore := s.ignore

namespace Config

variable {c : Config} {s : Settings}

/-- Settings that are read once are read again from what they are written as. -/
theorem Says.toConfig (h : c.Says s) : s.toConfig.Says s := by
  have hmodule := Grammar.isName_of_parseName h.module
  have hcontainer := Grammar.isName_of_parseName h.container
  refine ⟨?_, ?_, ?_, ?_, ⟨rfl, ?_⟩, rfl, rfl, ?_⟩
  · exact (ItemPath.parse?_display_iff _).mpr (ItemPath.Spells.of_parse? h.registration)
  · exact (ItemPath.parse?_display_iff _).mpr (ItemPath.Spells.of_parse? h.directive)
  · rw [Settings.toConfig, Grammar.trim_of_isName hmodule, Grammar.parseName_of_isName hmodule]
  · rw [Settings.toConfig, Grammar.trim_of_isName hcontainer,
      Grammar.parseName_of_isName hcontainer]
  · rw [Entry.Fits, Settings.toConfig, h.fileName.1]
    exact h.fileName.2
  · rw [Entry.Fits, Settings.toConfig, h.ignore.1]
    exact h.ignore.2

/-- Settings that a configuration is accepted as name the module and the type without blanks around,
have patterns that can be held against file names, and are read again from what they are written as.
A configuration that is not accepted is reported for the first of its entries that does not fit, in
the order in which they are looked at. -/
theorem validate_settles (c : Config) :
    (∀ s, c.validate = .ok s →
      (Grammar.parseName s.module = .ok s.module ∧ Text.trim s.module = s.module) ∧
      (Grammar.parseName s.container = .ok s.container ∧ Text.trim s.container = s.container) ∧
      (∀ text ∈ s.ignore, Pattern.IsPattern text) ∧ s.toConfig.validate = .ok s) ∧
    ∀ error, c.validate = .error error ↔
    ∃ before entry after, Entry.all = before ++ entry :: after ∧
      (∀ earlier ∈ before, earlier.Fits c) ∧ ¬ entry.Fits c ∧ entry.Blamed c error := by
  refine ⟨fun s h => ?_, validate_eq_error_iff c⟩
  have hsaid : c.Says s := validate_eq_ok_iff.mp h
  have hname {value name : String} (hread : Grammar.parseName value = .ok name) :
      Grammar.parseName name = .ok name ∧ Text.trim name = name :=
    ⟨Grammar.parseName_of_isName (Grammar.isName_of_parseName hread),
      Grammar.trim_of_isName (Grammar.isName_of_parseName hread)⟩
  have hignore : ∀ text ∈ s.ignore, Pattern.IsPattern text := by
    rw [hsaid.ignore.1]
    exact hsaid.ignore.2
  exact ⟨hname hsaid.module, hname hsaid.container, hignore, validate_eq_ok_iff.mpr hsaid.toConfig⟩

example : (validate { standard with registration := " :: worker :: r#function\n" }).toOption.map
    (fun s => s.toConfig.registration) = some "worker::r#function" := by decide +kernel

end Config

end MarkerIndex
