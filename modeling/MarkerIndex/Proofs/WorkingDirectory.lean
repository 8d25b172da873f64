import MarkerIndex.Proofs.NearestConfig
import MarkerIndex.Proofs.NormalFile
/-!
Where the search for a configuration ends. It goes up along the path as it is given, so that a
relative path leads it to the working directory and no farther. From two directories above a project
the same is found unless a configuration lies between them and none on the way down from the nearer
one.
-/

namespace MarkerIndex

namespace FilePath

/-- The relative path that goes down by names. -/
def wayTo (names : List String) : FilePath :=
  if names = [] then ⟨"."⟩ else spelled [] names

end FilePath

namespace Disk

open FilePath

variable {t : FileTree} {base : Place} {names : List String} {name : String}

theorem locate_dot (hbase : t.node? base = some .directory) :
    (Disk.mk t base).locate ⟨"."⟩ = .ok base := by
  rw [locate_eq_follow (by decide), if_neg (by decide)]
  simp [follow, splitSlashes, step, hbase, bind, Except.bind, pure, Except.pure]

/-- Names lead down through directories, to a place where nothing needs to lie. -/
theorem locate_spelled (hname : (Component.normal name).IsName)
    (hbase : t.node? (base ++ names) = some .directory) :
    (Disk.mk t base).locate (spelled [] names / name) = .ok (base ++ names ++ [name]) :=
  SetsOut.locate_concat (Or.inr ⟨FileTree.of_append hbase, 0, Nat.zero_le _, rfl⟩) hname hbase

end Disk

namespace Config

open FilePath

variable {t : FileTree} {root base place : Place} {before names : List String}

/-- The directories that names lead through from one on, that one included, the innermost first. -/
def directoriesAbove (base : Place) : List String → List Place
  | [] => []
  | name :: names => directoriesAbove (base ++ [name]) names ++ [base]

theorem directoriesAbove_append (base : Place) (before names : List String) :
    directoriesAbove base (before ++ names) =
      directoriesAbove (base ++ before) names ++ directoriesAbove base before := by
  induction before generalizing base with
  | nil => simp [directoriesAbove]
  | cons name before ih => simp [directoriesAbove, ih]

theorem directoriesAbove_concat (base : Place) (names : List String) (name : String) :
    directoriesAbove base (names ++ [name]) = (base ++ names) :: directoriesAbove base names := by
  rw [directoriesAbove_append]
  rfl

/-- The configuration that lies in a directory, if one does that can be read. -/
def inDirectory? (t : FileTree) (place : Place) : Option Config :=
  (t.text? (place ++ [fileNameInProject])).bind fun text => (ofText text).toOption

/-- The first configuration in some directories. -/
def firstIn? (t : FileTree) (places : List Place) : Option Config :=
  places.findSome? (inDirectory? t)

theorem tryRead?_of_locate {d : Disk} {directory : FilePath}
    (h : d.locate (directory / fileNameInProject) = .ok (place ++ [fileNameInProject])) :
    tryRead? d (directory / fileNameInProject) = inDirectory? d.tree place := by
  have hcontents := Disk.contentsAt?_of_locate h
  rw [inDirectory?, FileTree.text?, ← hcontents]
  cases hread : d.contentsAt? (directory / fileNameInProject) with
  | none =>
      cases hfound : d.readText (directory / fileNameInProject) with
      | error problem => simp [tryRead?, hfound]
      | ok text =>
          have hfile := Disk.isFile_of_readText_hidden isName_fileNameInProject (by decide) hfound
          rw [Disk.isFile_eq, hread] at hfile
          cases hfile
  | some contents =>
      rw [tryRead?, Disk.readText_of_contentsAt? hread]
      cases htext : String.fromUTF8? contents <;> simp [htext]

theorem tryRead?_spelled (hbase : t.node? (base ++ names) = some .directory) :
    tryRead? ⟨t, base⟩ (spelled [] names / fileNameInProject) = inDirectory? t (base ++ names) :=
  tryRead?_of_locate (Disk.locate_spelled isName_fileNameInProject hbase)

/-- A relative path is searched as far as it is spelled. By induction on its names, the last one
first. -/
theorem findSome?_ancestors_spelled
    (hbase : t.node? (base ++ names) = some .directory)
    {depth : Nat} (hdepth : names.length < depth) :
    ((spelled [] names).ancestors depth).findSome? (fun p =>
      tryRead? ⟨t, base⟩ (p / fileNameInProject)) =
      firstIn? t ((base ++ names) :: directoriesAbove base names) := by
  induction names using List.reverseRecOn generalizing depth with
  | nil =>
      -- an empty path has nothing above it
      obtain ⟨depth, rfl⟩ := Nat.exists_eq_add_one_of_ne_zero (Nat.ne_zero_of_lt hdepth)
      have hend : (spelled [] []).ancestors (depth + 1) = [spelled [] []] := rfl
      rw [hend, firstIn?, directoriesAbove, List.findSome?_singleton, List.findSome?_singleton]
      exact tryRead?_spelled hbase
  | append_singleton above last ih =>
      obtain ⟨depth, rfl⟩ := Nat.exists_eq_add_one_of_ne_zero (Nat.ne_zero_of_lt hdepth)
      have hparent : t.node? (base ++ above) = some .directory := by
        rw [← List.append_assoc] at hbase
        exact FileTree.of_concat hbase
      have hup : (spelled [] (above ++ [last])).ancestors (depth + 1) =
          spelled [] (above ++ [last]) :: (spelled [] above).ancestors depth := by
        have hnames := (FileTree.areNames_of_node? hbase).of_append.2
        rw [ancestors, parent?_spelled_concat isOutset_nil hnames]
      have hrest := ih hparent (show above.length < depth by simpa using hdepth)
      rw [hup, firstIn?, directoriesAbove_concat, List.findSome?_cons, List.findSome?_cons,
        tryRead?_spelled hbase, hrest]
      rfl

/-- From a directory the configuration of what lies below it is searched for up to the directory. -/
theorem load_wayTo (hbase : t.node? (base ++ names) = some .directory)
    (hdepth : names.length < searchDepth) : load ⟨t, base⟩ (wayTo names) =
      (firstIn? t ((base ++ names) :: directoriesAbove base names)).getD standard := by
  rw [load, places, List.findSome?_map]
  congr 1
  by_cases hnone : names = []
  · subst hnone
    -- the directory is looked at twice, by a dot and by nothing
    have hdotted : (wayTo []).ancestors searchDepth = [⟨"."⟩, spelled [] []] := by decide
    have hdot : tryRead? ⟨t, base⟩ (FilePath.mk "." / fileNameInProject) =
        inDirectory? t (base ++ []) := by
      rw [List.append_nil] at hbase ⊢
      exact tryRead?_of_locate
        (Disk.locate_join (Disk.locate_dot hbase) hbase isName_fileNameInProject)
    rw [hdotted, firstIn?, directoriesAbove]
    simp only [List.findSome?_cons, List.findSome?_nil, Function.comp_apply, hdot,
      tryRead?_spelled hbase]
    cases inDirectory? t (base ++ []) <;> rfl
  · rw [wayTo, if_neg hnone]
    exact findSome?_ancestors_spelled hbase hdepth

/-- What is found from a directory farther up is what is found from the nearer one, or else what
lies between them. -/
theorem firstIn?_append (t : FileTree) (root : Place) (before names : List String) :
    firstIn? t ((root ++ (before ++ names)) :: directoriesAbove root (before ++ names)) =
      (firstIn? t ((root ++ before ++ names) :: directoriesAbove (root ++ before) names)).or
        (firstIn? t (directoriesAbove root before)) := by
  rw [directoriesAbove_append, ← List.append_assoc, ← List.cons_append, firstIn?,
    List.findSome?_append]
  rfl

/-- From two directories above it a project has the same settings just when a configuration lies on
the way from the nearer one down to the project, or none lies between the two, or the innermost one
there comes to the same as the standard one. -/
theorem settings_from_directory
    (hproject : t.node? (root ++ before ++ names) = some .directory)
    (hdepth : (before ++ names).length < searchDepth) :
    settings ⟨t, root ++ before⟩ (wayTo names) none =
      settings ⟨t, root⟩ (wayTo (before ++ names)) none ↔
      (firstIn? t ((root ++ before ++ names) :: directoriesAbove (root ++ before) names) = none →
        ∀ config, firstIn? t (directoriesAbove root before) = some config →
          validate config = validate standard) := by
  have hnear := load_wayTo hproject (Nat.lt_of_le_of_lt (by simp) hdepth)
  rw [List.append_assoc] at hproject
  have hfar := load_wayTo hproject hdepth
  rw [firstIn?_append] at hfar
  simp only [settings, hnear, hfar]
  cases firstIn? t ((root ++ before ++ names) :: directoriesAbove (root ++ before) names) with
  | some config => simp
  | none =>
      cases firstIn? t (directoriesAbove root before) with
      | none => simp
      | some config => simp [eq_comm]

/-- A project that has a configuration of its own has its settings from anywhere. -/
theorem settings_from_layered : let t := (layered "[output]\nnamespace = \"near\"\n").tree
    settings ⟨t, ["x", "p"]⟩ ⟨"."⟩ none = settings ⟨t, ["x"]⟩ ⟨"p"⟩ none := by
  refine (@settings_from_directory _ ["x"] ["p"] [] (by decide +kernel) (by decide)).mpr ?_
  exact fun hnone => absurd hnone (by decide +kernel)

/-- The settings of the projects in a directory are the same from all directories on the way to
them. -/
def SettingsBelong (t : FileTree) (root : Place) : Prop :=
  ∀ before names, t.node? (root ++ before ++ names) = some .directory →
    (before ++ names).length < searchDepth →
    settings ⟨t, root ++ before⟩ (wayTo names) none =
      settings ⟨t, root⟩ (wayTo (before ++ names)) none

/-- A project without a configuration, in a directory that has one. -/
def sheltered : FileTree :=
  .ofTexts [(["x", ".markscan.toml"], "[output]\nnamespace = \"far\"\n"),
    (["x", "p", "src", "lib.rs"], "")]

/-- From the project itself the configuration above it is not found. -/
theorem settings_from_sheltered : ¬ SettingsBelong sheltered ["x"] := by
  intro hbelong
  have hsame := hbelong ["p"] [] (by decide +kernel) (by decide)
  have hnear : settings ⟨sheltered, ["x", "p"]⟩ ⟨"."⟩ none = .ok .standard :=
    settings_eq (by decide +kernel) declarableName_standard rfl
  have hfar : settings ⟨sheltered, ["x"]⟩ ⟨"p"⟩ none =
      .ok { Settings.standard with module := "far" } :=
    settings_eq (by decide +kernel) (Pass.ok_of_toOption (by decide +kernel)) rfl
  exact absurd (Except.ok.inj (hnear.symm.trans (hsame.trans hfar))) (by decide)

end Config

end MarkerIndex
