import MarkerIndex.Proofs.Delivery
import MarkerIndex.Proofs.Watching
/-!
Where a build touches files. It touches one file at most, at the path that the configured name makes
of the output directory. The name is taken as it stands: only one that leads down, all steps up
taken back, keeps the path below every directory that a build may be given.
-/

namespace MarkerIndex

namespace FilePath

open Component

/-- In normal form the path goes down by names only. -/
def GoesDown (p : FilePath) : Prop :=
  ∀ c ∈ p.normalize.components, c.isDown = true

instance (p : FilePath) : Decidable p.GoesDown :=
  inferInstanceAs (Decidable (∀ c ∈ _, _))

/-- In normal form the path goes on by names from where another path leads. -/
def GoesOnBy (p base : FilePath) (names : List String) : Prop :=
  p.normalize.below? base.normalize = some (names.map .normal)

variable {p q base : FilePath} {names : List String}

theorem goesOnBy_iff : p.GoesOnBy base names ↔
    normalComponents p.components = normalComponents base.components ++ names.map .normal := by
  rw [GoesOnBy, below?, componentsBelow?_eq_some_iff, components_normalize, components_normalize]

theorem exists_names_iff {cs : List Component} :
    (∃ names : List String, cs = names.map .normal) ↔ ∀ c ∈ cs, c.isDown = true := by
  constructor
  · rintro ⟨names, rfl⟩ c member
    obtain ⟨name, -, rfl⟩ := List.mem_map.mp member
    rfl
  · intro hdown
    induction cs with
    | nil => exact ⟨[], rfl⟩
    | cons c cs ih =>
        obtain ⟨hc, hcs⟩ := List.forall_mem_cons.mp hdown
        obtain ⟨names, rfl⟩ := ih hcs
        cases c with
        | normal name => exact ⟨name :: names, rfl⟩
        | _ => cases hc

theorem goesDown_iff : p.GoesDown ↔
    ∃ names : List String, normalComponents p.components = names.map .normal := by
  rw [exists_names_iff, GoesDown, components_normalize]

theorem GoesDown.isAbsolute_eq_false (h : p.GoesDown) : p.isAbsolute = false := by
  by_contra habsolute
  have hroot : .root ∈ p.normalize.components := by
    rw [components_normalize, root_mem_normalComponents_iff, root_mem_components_iff]
    simpa using habsolute
  cases h .root hroot

/-- A path that goes down goes on from whatever it is joined to. -/
theorem GoesDown.goesOnBy (h : p.GoesDown) :
    ∃ names, ∀ base : FilePath, (base.join p).GoesOnBy base names := by
  obtain ⟨names, hnames⟩ := goesDown_iff.mp h
  have hrelative := h.isAbsolute_eq_false
  -- the path by itself is the path from nowhere
  have hsteps :
      (namesOf p.text.toList).foldl normalStep [] = (names.map Component.normal).reverse := by
    have hstart := normalComponents_join ⟨""⟩ hrelative
    rw [empty_join rfl, hnames] at hstart
    rw [hstart, List.reverse_reverse]
    rfl
  refine ⟨names, fun base => goesOnBy_iff.mpr ?_⟩
  have hup : .parent ∉ (namesOf p.text.toList).foldl normalStep [] := by
    rw [hsteps]
    simp
  rw [normalComponents_join base hrelative,
    foldl_normalStep_append isName_of_mem_namesOf hup, hsteps]
  simp

/-- A name keeps the path that it makes of a directory below it, whatever the directory, just when
the name goes down. -/
theorem goesDown_iff_goesOnBy :
    p.GoesDown ↔ ∀ base : FilePath, ∃ names, (base.join p).GoesOnBy base names := by
  constructor
  · intro h base
    obtain ⟨names, hnames⟩ := h.goesOnBy
    exact ⟨names, hnames base⟩
  · intro h
    obtain ⟨names, hnames⟩ := h ⟨""⟩
    rw [empty_join rfl] at hnames
    exact goesDown_iff.mpr ⟨names, goesOnBy_iff.mp hnames⟩

end FilePath

namespace Disk

open FilePath

variable {d : Disk} {package out p base : FilePath} {names : List String} {place : Place}

theorem spelledPlace_of_goesOnBy (d : Disk) (h : p.GoesOnBy base names) :
    d.spelledPlace p = d.spelledPlace base ++ names := by
  rw [← spelledPlace_normalize d p, ← spelledPlace_normalize d base, spelledPlace_eq,
    spelledPlace_eq,
    components_normalize, components_normalize, goesOnBy_iff.mp h, List.foldl_append, foldl_go_map]

/-- The build makes, alters or removes the file at a place. -/
def BuildTouches (d : Disk) (package out : FilePath) (place : Place) : Prop :=
  (d.build package out).disk.tree.contents? place ≠ d.tree.contents? place

/-- The settings of a package give its output the name. -/
def NamesOutput (d : Disk) (package : FilePath) (name : String) : Prop :=
  ∃ settings, Config.settings d package none = .ok settings ∧ settings.fileName = name

/-- Whatever the build touches has a path that in normal form lies below the output directory. -/
def BuildStaysBelow (d : Disk) (package out : FilePath) : Prop :=
  ∀ place, d.BuildTouches package out place → ∃ name, d.NamesOutput package name ∧
    ∃ names, names ≠ [] ∧ (out / name).GoesOnBy out names

/-- A file that a build touches lies where the path leads that it delivers to, and no directory
does. -/
theorem BuildTouches.exists_ready (h : d.BuildTouches package out place) :
    ∃ name, d.NamesOutput package name ∧ ∃ ready : Disk, ready.here = d.here ∧
      ready.locate (out / name) = .ok place ∧ ready.tree.node? place ≠ some .directory := by
  unfold BuildTouches at h
  rcases build_cases d package out with ⟨-, -, hdisk⟩ | ⟨settings, artifact, hsettings, hgenerate⟩
  · rw [hdisk] at h
    exact absurd rfl h
  · rw [build_eq hsettings hgenerate] at h
    exact ⟨settings.fileName, ⟨settings, hsettings, rfl⟩, (delivering d _ _).exists_ready h⟩

/-- A name that goes down keeps a build below its output directory. -/
theorem buildStaysBelow_of_goesDown
    (h : ∀ name, d.NamesOutput package name → (FilePath.mk name).GoesDown) :
    d.BuildStaysBelow package out := by
  intro place htouches
  obtain ⟨name, hname, ready, hhere, hlocate, hnode⟩ := htouches.exists_ready
  have hdown := h name hname
  obtain ⟨names, hnames⟩ := hdown.goesOnBy
  have hon : (out / name).GoesOnBy out names := hnames out
  refine ⟨name, hname, names, ?_, hon⟩
  -- the output directory itself is gone through, and is no file
  rintro rfl
  have hplace : place = ready.spelledPlace out := by
    rw [eq_spelledPlace_of_locate hlocate, spelledPlace_of_goesOnBy ready hon, List.append_nil]
  rw [hplace] at hnode
  exact hnode (node?_of_locate_join hdown.isAbsolute_eq_false hlocate)

/-- Whatever is configured, a build touches no more than the file that the configured name leads to
from the output directory. A name that goes down keeps it below that directory, and no other name
keeps the path below every directory. -/
theorem build_touches (d : Disk) (package out : FilePath) :
    (∀ place, d.BuildTouches package out place → ∃ name, d.NamesOutput package name ∧
      place = d.spelledPlace (out / name) ∧
      ∀ names, (out / name).GoesOnBy out names → place = d.spelledPlace out ++ names) ∧
    ((∀ name, d.NamesOutput package name → (FilePath.mk name).GoesDown) →
      d.BuildStaysBelow package out) ∧
    ∀ name : FilePath, name.GoesDown ↔
      ∀ base : FilePath, ∃ names, (base.join name).GoesOnBy base names := by
  refine ⟨fun place htouches => ?_, buildStaysBelow_of_goesDown, fun name => goesDown_iff_goesOnBy⟩
  obtain ⟨name, hname, ready, hhere, hlocate, -⟩ := htouches.exists_ready
  have hplace : place = d.spelledPlace (out / name) :=
    (eq_spelledPlace_of_locate hlocate).trans (spelledPlace_congr hhere _)
  exact ⟨name, hname, hplace, fun names hnames => hplace.trans (spelledPlace_of_goesOnBy d hnames)⟩

/-- A package with nothing to generate and files of one name, beside the output directory, in it and
below it. -/
def configured (name : String) : Disk where
  tree := .ofTexts [(["x", ".markscan.toml"], "[output]\nfile_name = \"" ++ name ++ "\"\n"),
    (["x", "src", "lib.rs"], ""), (["x", "made.rs"], ""), (["x", "out", "made.rs"], ""),
    (["x", "out", "deep", "made.rs"], "")]
  here := ["x"]

def namedSettings (name : String) : Settings :=
  { Settings.standard with fileName := name }

theorem settings_configured {name : String}
    (hload : Config.load (configured name) ⟨"."⟩ = { Config.standard with fileName := name })
    (hname : Config.checkFileName name = .ok ()) :
    Config.settings (configured name) ⟨"."⟩ none = .ok (namedSettings name) :=
  Config.settings_eq hload Config.declarableName_standard hname

/-- Such a build takes away what the path leads to. -/
theorem buildTouches_configured {name : String} {place : Place}
    (hsettings : Config.settings (configured name) ⟨"."⟩ none = .ok (namedSettings name))
    (hsources : (configured name).sourceSet ⟨"."⟩ (namedSettings name) =
      .ok ⟨⟨"src/lib.rs"⟩, ⟨"src"⟩, [⟨"lib.rs"⟩]⟩)
    (htext : (configured name).readText ⟨"src/lib.rs"⟩ = .ok "")
    (hremoved : ((configured name).deliver (FilePath.mk "out" / name) none).disk.tree.contents?
      place ≠
      (configured name).tree.contents? place) :
    (configured name).BuildTouches ⟨"."⟩ ⟨"out"⟩ place := by
  rw [BuildTouches, build_eq hsettings (generate_empty hsources htext)]
  exact hremoved

/-- A name that goes down again after all steps up have been taken back. -/
theorem build_touches_inside : let d := configured "deep/../made.rs"
    d.BuildTouches ⟨"."⟩ ⟨"out"⟩ ["x", "out", "made.rs"] ∧ d.BuildStaysBelow ⟨"."⟩ ⟨"out"⟩ := by
  have hsettings : Config.settings (configured "deep/../made.rs") ⟨"."⟩ none =
      .ok (namedSettings "deep/../made.rs") := settings_configured (by decide +kernel) rfl
  refine ⟨buildTouches_configured hsettings (Pass.ok_of_toOption (by decide +kernel))
    (Pass.ok_of_toOption (by decide +kernel)) (by decide +kernel), ?_⟩
  refine (build_touches _ ⟨"."⟩ ⟨"out"⟩).2.1 ?_
  rintro name ⟨settings, hfound, rfl⟩
  obtain rfl := Except.ok.inj (hsettings.symm.trans hfound)
  decide +kernel

/-- A name that goes up is taken like any other, and the file beside the output directory is gone.
-/
theorem build_strays : ¬ (configured "../made.rs").BuildStaysBelow ⟨"."⟩ ⟨"out"⟩ := by
  have hsettings :
      Config.settings (configured "../made.rs") ⟨"."⟩ none = .ok (namedSettings "../made.rs") :=
    settings_configured (by decide +kernel) rfl
  have htouches : (configured "../made.rs").BuildTouches ⟨"."⟩ ⟨"out"⟩ ["x", "made.rs"] :=
    buildTouches_configured hsettings (Pass.ok_of_toOption (by decide +kernel))
      (Pass.ok_of_toOption (by decide +kernel)) (by decide +kernel)
  have hnone :
      (FilePath.mk "out" / "../made.rs").normalize.below? (FilePath.mk "out").normalize = none := by
    decide +kernel
  intro hbelow
  obtain ⟨name, ⟨settings, hfound, rfl⟩, names, -, hnames⟩ := hbelow _ htouches
  obtain rfl := Except.ok.inj (hsettings.symm.trans hfound)
  exact absurd (hnone.symm.trans hnames) (by simp)

end Disk

end MarkerIndex
