import MarkerIndex.Proofs.Watching
/-!
Which file the configuration of a project comes from. One search is for the nearest file of the
name, and another one for the nearest that can be read as a configuration. They part where the first
finds a file that cannot be read: then a farther file decides, which the first search never comes
to.
-/

namespace MarkerIndex.Config

variable {d : Disk} {project p q : FilePath}

/-- The configuration in the nearest file. It is the standard one where there is no file, and where
the file cannot be read as a configuration. -/
def nearest (d : Disk) (project : FilePath) : Config :=
  ((find? d project).bind (tryRead? d)).getD standard

/-- The nearest file cannot be read as a configuration, and another one decides. -/
structure PassesOver (d : Disk) (project p q : FilePath) : Prop where
  found : find? d project = some p
  broken : tryRead? d p = none
  deciding : deciding? d project = some q

theorem isSome_of_deciding (h : deciding? d project = some q) : (tryRead? d q).isSome = true := by
  simpa using List.find?_some (p := fun p => (tryRead? d p).isSome) h

/-- Only a file that is tried later can decide in the place of the nearest one. -/
theorem PassesOver.farther (h : PassesOver d project p q) :
    ∃ nearer between rest, places project = nearer ++ p :: (between ++ q :: rest) := by
  have hread := isSome_of_deciding h.deciding
  obtain ⟨-, nearer, later, hplaces, hnearer⟩ := List.find?_eq_some_iff_append.mp h.found
  have hmember : q ∈ nearer ++ p :: later := hplaces ▸ List.mem_of_find?_eq_some h.deciding
  have hlater : q ∈ later := by
    rcases List.mem_append.mp hmember with hq | hq
    · have hfile := hnearer q hq
      have hplace : q ∈ places project := hplaces ▸ List.mem_append_left _ hq
      simp [isFile_of_tryRead? hplace hread] at hfile
    · rcases List.mem_cons.mp hq with rfl | hq
      · simp [h.broken] at hread
      · exact hq
  obtain ⟨between, rest, rfl⟩ := List.append_of_mem hlater
  exact ⟨nearer, between, rest, hplaces⟩

theorem load_of_deciding (h : deciding? d project = some q) :
    tryRead? d q = some (load d project) := by
  obtain ⟨config, hconfig⟩ := Option.isSome_iff_exists.mp (isSome_of_deciding h)
  rw [load_eq, h, Option.bind_some, hconfig, Option.getD_some]

/-- Where the nearest file can be read as a configuration, or there is none, the two searches agree.
-/
theorem load_eq_nearest_of_readable (h : ∀ p, find? d project = some p →
    (tryRead? d p).isSome = true) :
    load d project = nearest d project := by
  rw [load_eq, deciding?_eq_find? h, nearest]

/-- Where the nearest file is passed over, the two searches agree on the standard configuration
only. -/
theorem load_eq_nearest_iff : load d project = nearest d project ↔
    ∀ p q, PassesOver d project p q → tryRead? d q = some standard := by
  by_cases hreadable : ∀ p, find? d project = some p → (tryRead? d p).isSome = true
  · refine iff_of_true (load_eq_nearest_of_readable hreadable) fun p q h => ?_
    have hread := hreadable p h.found
    simp [h.broken] at hread
  · push Not at hreadable
    obtain ⟨p, hfound, hbroken⟩ := hreadable
    have hbroken : tryRead? d p = none := by simpa using hbroken
    have hnearest : nearest d project = standard := by simp [nearest, hfound, hbroken]
    rw [hnearest]
    constructor
    · intro hload p q h
      rw [← hload]
      exact load_of_deciding h.deciding
    · intro hstandard
      cases hdeciding : deciding? d project with
      | none => simp [load_eq, hdeciding]
      | some q =>
          have hq := hstandard p q ⟨hfound, hbroken, hdeciding⟩
          exact Option.some.inj ((load_of_deciding hdeciding).symm.trans hq)

/-- Two disks with the same nearest file, which can be read as a configuration, or with none. -/
theorem load_congr {d' : Disk}
    (hreadable : ∀ p, find? d project = some p → (tryRead? d p).isSome = true)
    (hfind : find? d' project = find? d project)
    (htext : ∀ p, find? d project = some p → d'.readText p = d.readText p) :
    load d' project = load d project := by
  have hsame : ∀ p, find? d project = some p → tryRead? d' p = tryRead? d p := by
    intro p hp
    rw [tryRead?, tryRead?, htext p hp]
  have hreadable' : ∀ p, find? d' project = some p → (tryRead? d' p).isSome = true := by
    intro p hp
    rw [hfind] at hp
    rw [hsame p hp]
    exact hreadable p hp
  rw [load_eq_nearest_of_readable hreadable, load_eq_nearest_of_readable hreadable', nearest,
    nearest, hfind]
  cases hfound : find? d project with
  | none => rfl
  | some p => rw [Option.bind_some, Option.bind_some, hsame p hfound]

/-- The configuration of a project is that of the nearest file, unless the file is passed over for
one that does not hold the standard configuration. Where it is passed over, a farther file holds the
configuration. Where it can be read, or there is none, nothing else on the disk has a say. -/
theorem load_by_nearest (d : Disk) (project : FilePath) :
    (load d project = nearest d project ↔
      ∀ p q, PassesOver d project p q → tryRead? d q = some standard) ∧
    (∀ p q, PassesOver d project p q → tryRead? d q = some (load d project) ∧
      ∃ nearer between rest, places project = nearer ++ p :: (between ++ q :: rest)) ∧
    ((∀ p, find? d project = some p → (tryRead? d p).isSome = true) →
      ∀ d', find? d' project = find? d project →
        (∀ p, find? d project = some p → d'.readText p = d.readText p) →
        load d' project = load d project ∧ settings d' project none = settings d project none) := by
  refine ⟨load_eq_nearest_iff, fun p q h => ⟨load_of_deciding h.deciding, h.farther⟩, ?_⟩
  intro hreadable d' hfind htext
  have hload := load_congr hreadable hfind htext
  exact ⟨hload, by rw [settings, settings, hload]⟩

/-- A package with a configuration, in a directory that has one too. -/
def layered (text : String) : Disk where
  tree := .ofTexts [(["x", ".markscan.toml"], "[output]\nnamespace = \"far\"\n"),
    (["x", "p", ".markscan.toml"], text)]
  here := ["x"]

/-- A nearest file that can be read decides, whatever lies farther up. -/
theorem load_layered : load (layered "[output]\nnamespace = \"near\"\n") ⟨"p"⟩ =
    { standard with module := "near" } := by
  let d := layered "[output]\nnamespace = \"near\"\n"
  have hfind : find? d ⟨"p"⟩ = some ⟨"p/.markscan.toml"⟩ := by decide +kernel
  have hread : tryRead? d ⟨"p/.markscan.toml"⟩ = some { standard with module := "near" } := by
    decide +kernel
  have hload : load d ⟨"p"⟩ = nearest d ⟨"p"⟩ := by
    refine (load_by_nearest d ⟨"p"⟩).1.mpr fun p q h => ?_
    obtain rfl := Option.some.inj (hfind.symm.trans h.found)
    exact absurd (hread.symm.trans h.broken) (by simp)
  rw [hload, nearest, hfind, Option.bind_some, hread, Option.getD_some]

/-- The nearest file is none that can be read, and a farther one decides. Without that one the
settings are others, though the nearest file is the same. -/
theorem load_beyond_broken : ∃ alone : Disk,
    find? (layered "=") ⟨"p"⟩ = some ⟨"p/.markscan.toml"⟩ ∧
    tryRead? (layered "=") ⟨"p/.markscan.toml"⟩ = none ∧
    load (layered "=") ⟨"p"⟩ = { standard with module := "far" } ∧
    find? alone ⟨"p"⟩ = some ⟨"p/.markscan.toml"⟩ ∧
    alone.readText ⟨"p/.markscan.toml"⟩ = (layered "=").readText ⟨"p/.markscan.toml"⟩ ∧
    load alone ⟨"p"⟩ = standard :=
  ⟨⟨.ofTexts [(["x", "p", ".markscan.toml"], "=")], ["x"]⟩, by decide +kernel⟩

end MarkerIndex.Config
