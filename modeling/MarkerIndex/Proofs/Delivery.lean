import MarkerIndex.Project.Output
import MarkerIndex.Proofs.Disk
/-!
Bringing a file in line with a pass and checking whether it is. Both look at the same file and
decide by it alone: a check passes just where a delivery would leave the file as it is. The main
statement is about every call in a sequence of deliveries to one path. No file is touched but the
one that the path spells. A call that gets through leaves exactly the generated contents, or no file
where nothing was generated, unless a special file takes the contents and keeps none of them. A call
that fails leaves the contents of all files, unless a write has broken off: the file is written in
place, and holds the first bytes of the contents then.
-/

namespace MarkerIndex.Disk

variable {d : Disk} {p : FilePath} {g : Option String}

theorem fromUTF8?_eq_some_iff {contents : ByteArray} {text : String} :
    String.fromUTF8? contents = some text ↔ contents = text.toUTF8 := by
  unfold String.fromUTF8?
  split
  · constructor
    · intro h
      obtain rfl := Option.some.inj h
      rfl
    · rintro rfl
      rfl
  · next hinvalid =>
      simp only [reduceCtorEq, false_iff]
      rintro rfl
      exact hinvalid text.isValidUTF8

theorem existing_of_none (h : d.contentsAt? p = none) : d.existing p = .ok none := by
  simp [existing, isFile_eq, h]

theorem existing_of_text {text : String} (h : d.contentsAt? p = some text.toUTF8) :
    d.existing p = .ok (some text) := by
  have hread : d.readText p = .ok text := by
    rw [readText_of_contentsAt? h, fromUTF8?_eq_some_iff.mpr rfl]
  simp [existing, isFile_eq, h, read, hread, Except.mapError, Except.map]

theorem existing_of_unreadable {problem : FileProblem} (hfile : d.isFile p = true)
    (h : d.readText p = .error problem) : d.existing p = .error (.fileSystem .read problem) := by
  simp [existing, hfile, read, h, Except.mapError, Except.map]

/-- There is no file, or a text, or a file that cannot be read. -/
theorem contentsAt?_cases (d : Disk) (p : FilePath) :
    d.contentsAt? p = none ∨ (∃ text : String, d.contentsAt? p = some text.toUTF8) ∨
      ∃ problem, d.isFile p = true ∧ d.readText p = .error problem := by
  cases hcontents : d.contentsAt? p with
  | none => exact Or.inl rfl
  | some contents =>
      apply Or.inr
      have hread := readText_of_contentsAt? hcontents
      cases htext : String.fromUTF8? contents with
      | some text => exact Or.inl ⟨text, by rw [fromUTF8?_eq_some_iff.mp htext]⟩
      | none =>
          rw [htext] at hread
          exact Or.inr ⟨.notText, by simp [isFile_eq, hcontents], hread⟩

/-- All that a delivery may come to. -/
inductive Delivering (d : Disk) (p : FilePath) :
    Option String → Change (Except Error Delivery) → Prop
  | unreadable {g : Option String} {problem : FileProblem} : d.isFile p = true →
      d.readText p = .error problem →
      Delivering d p g ⟨.error (.fileSystem .read problem), d⟩
  | unchanged {text : String} : d.contentsAt? p = some text.toUTF8 →
      Delivering d p (some text) ⟨.ok .unchanged, d⟩
  | skipped : d.contentsAt? p = none → Delivering d p none ⟨.ok .skipped, d⟩
  | removed {text : String} {place : Place} : d.contentsAt? p = some text.toUTF8 →
      d.LeadsToFile p place → Delivering d p none ⟨.ok .removed, d.withoutFile place⟩
  /-- The file is not as it should be, and cannot be opened. -/
  | blocked {text : String} {other : Option String} {error : Error} {after : Disk} :
      d.existing p = .ok other → other ≠ some text → d.GainsDirectories after →
      Delivering d p (some text) ⟨.error error, after⟩
  | taken {text : String} {other : Option String} {ready : Disk} {place : Place}
      {device : Device} :
      d.existing p = .ok other → other ≠ some text → d.GainsDirectories ready →
      ready.locate p = .ok place → ready.tree.node? place = some (.special device) →
      Delivering d p (some text) ⟨.ok .written, ready⟩
  | written {text : String} {other : Option String} {ready : Disk} {place : Place} :
      d.existing p = .ok other → other ≠ some text → d.GainsDirectories ready →
      ready.LeadsToFile p place →
      Delivering d p (some text) ⟨.ok .written, ready.withFile place text.toUTF8⟩
  | broken {text : String} {other : Option String} {ready : Disk} {place : Place}
      {fault : WriteFault} :
      d.existing p = .ok other → other ≠ some text → d.GainsDirectories ready →
      ready.LeadsToFile p place → d.tree.fault? = some fault → fault.taken < text.toUTF8.size →
      Delivering d p (some text) ⟨.error (.fileSystem .write fault.problem),
        ready.withFile place (text.toUTF8.extract 0 fault.taken)⟩

theorem delivering_of_write {text : String} {other : Option String}
    (hexisting : d.existing p = .ok other) (hother : other ≠ some text) :
    Delivering d p (some text) (d.deliver p (some text)) := by
  have hdeliver : d.deliver p (some text) =
      ⟨(d.write p text).result.map fun () => .written, (d.write p text).disk⟩ := by
    simp only [deliver, hexisting, if_neg hother]
  rw [hdeliver]
  have hall := writing d p text
  generalize d.write p text = change at hall ⊢
  cases hall with
  | blocked hgains => exact .blocked hexisting hother hgains
  | taken hgains hlocate hnode => exact .taken hexisting hother hgains hlocate hnode
  | written hgains hleads => exact .written hexisting hother hgains hleads
  | broken hgains hleads hfault htaken =>
      exact .broken hexisting hother hgains hleads hfault htaken

theorem delivering (d : Disk) (p : FilePath) (g : Option String) :
    Delivering d p g (d.deliver p g) := by
  rcases contentsAt?_cases d p with hnone | ⟨found, hfound⟩ | ⟨problem, hfile, hread⟩
  · have hexisting := existing_of_none hnone
    cases g with
    | none =>
        have hdeliver : d.deliver p none = ⟨.ok .skipped, d⟩ := by simp only [deliver, hexisting]
        rw [hdeliver]
        exact .skipped hnone
    | some text => exact delivering_of_write hexisting (by simp)
  · have hexisting := existing_of_text hfound
    cases g with
    | none =>
        obtain ⟨place, hleads, hremove⟩ := remove_eq hfound
        have hdeliver : d.deliver p none = ⟨.ok .removed, d.withoutFile place⟩ := by
          simp only [deliver, hexisting, hremove]
          rfl
        rw [hdeliver]
        exact .removed hfound hleads
    | some text =>
        by_cases hsame : found = text
        · subst hsame
          have hdeliver : d.deliver p (some found) = ⟨.ok .unchanged, d⟩ := by
            simp only [deliver, hexisting, if_true]
          rw [hdeliver]
          exact .unchanged hfound
        · exact delivering_of_write hexisting (by simpa using hsame)
  · have hdeliver : d.deliver p g = ⟨.error (.fileSystem .read problem), d⟩ := by
      simp only [deliver, existing_of_unreadable hfile hread]
    rw [hdeliver]
    exact .unreadable hfile hread

/-- A path that holds what should stand there passes a check, and delivering it again changes
nothing. -/
theorem settled (h : d.contentsAt? p = g.map String.toUTF8) :
    d.verify p g = .ok () ∧
      d.deliver p g = ⟨.ok (if g.isSome then .unchanged else .skipped), d⟩ := by
  cases g with
  | none => simp [verify, deliver, existing_of_none h]
  | some text => simp [verify, deliver, existing_of_text h]

theorem verify_of_ne {found : Option String} (hexisting : d.existing p = .ok found)
    (h : found ≠ g) :
    d.verify p g = .error (.staleOutput p) := by
  simp only [verify, hexisting, if_neg h]

/-- At the place of a path lies a special file. -/
def SpecialAt (d : Disk) (p : FilePath) : Prop :=
  ∃ device, d.tree.node? (d.spelledPlace p) = some (.special device)

/-- Directories that are made leave special files where they are. -/
theorem GainsDirectories.specialAt_iff {ready : Disk} (h : d.GainsDirectories ready) :
    ready.SpecialAt p ↔ d.SpecialAt p := by
  rw [SpecialAt, SpecialAt, h.spelledPlace]
  rcases h.tree (d.spelledPlace p) with hsame | ⟨hnone, hnew⟩
  · rw [hsame]
  · simp [hnone, hnew]

/-- A write of a text to a path has broken off: the file there holds the first bytes of the text, as
many as were taken, and what else is new are directories. -/
structure BreaksOff (before : Disk) (p : FilePath) (text : String) (error : Error)
    (after : Disk) (fault : WriteFault) : Prop where
  pending : before.tree.fault? = some fault
  short : fault.taken < text.toUTF8.size
  error : error = .fileSystem .write fault.problem
  holds : after.contentsAt? p = some (text.toUTF8.extract 0 fault.taken)
  others : ∀ place, place ≠ before.spelledPlace p →
    after.tree.node? place = before.tree.node? place ∨
      before.tree.node? place = none ∧ after.tree.node? place = some .directory

namespace Delivering

variable {change : Change (Except Error Delivery)}

/-- Where a file is changed, the path leads to it. A delivery of nothing takes away a text, and any
other delivery writes what it brings, or the first bytes of it. -/
theorem changed (h : Delivering d p g change) {place : Place}
    (hchanged : change.disk.tree.contents? place ≠ d.tree.contents? place) :
    (∃ text : String, g = none ∧ d.locate p = .ok place ∧
      d.tree.contents? place = some text.toUTF8 ∧ change.disk.tree.contents? place = none) ∨
    ∃ ready contents, d.GainsDirectories ready ∧ ready.LeadsToFile p place ∧
      change.disk.tree.contents? place = some contents ∧
      (change.result = .ok .written ∨
        ∃ problem, change.result = .error (.fileSystem .write problem)) := by
  cases h with
  | unreadable _ _ => exact absurd rfl hchanged
  | unchanged _ => exact absurd rfl hchanged
  | skipped _ => exact absurd rfl hchanged
  | @removed text stop htext hleads =>
      obtain rfl : place = stop := by
        by_contra hother
        exact hchanged (hleads.contents?_withoutFile hother)
      have hlocate := hleads.locate
      exact Or.inl ⟨text, rfl, hlocate, (contentsAt?_of_locate hlocate).symm.trans htext,
        hleads.contents?_withoutFile_self⟩
  | blocked _ _ hgains => exact absurd (hgains.tree.contents? place) hchanged
  | taken _ _ hgains _ _ => exact absurd (hgains.tree.contents? place) hchanged
  | @written text other ready stop _ _ hgains hleads =>
      obtain rfl : place = stop := by
        by_contra hother
        exact hchanged ((hleads.contents?_withFile hother).trans (hgains.tree.contents? place))
      exact Or.inr ⟨ready, _, hgains, hleads, hleads.contents?_withFile_self, Or.inl rfl⟩
  | @broken text other ready stop fault _ _ hgains hleads _ _ =>
      obtain rfl : place = stop := by
        by_contra hother
        exact hchanged ((hleads.contents?_withFile hother).trans (hgains.tree.contents? place))
      exact Or.inr ⟨ready, _, hgains, hleads, hleads.contents?_withFile_self, Or.inr ⟨_, rfl⟩⟩

/-- A file that is changed lies where the path leads, and no directory does. -/
theorem exists_ready (h : Delivering d p g change) {place : Place}
    (hchanged : change.disk.tree.contents? place ≠ d.tree.contents? place) :
    ∃ ready : Disk, ready.here = d.here ∧ ready.locate p = .ok place ∧
      ready.tree.node? place ≠ some .directory := by
  rcases h.changed hchanged with ⟨text, -, hlocate, htext, -⟩ | ⟨ready, -, hgains, hleads, -⟩
  · exact ⟨d, rfl, hlocate, by simp [FileTree.contents?_eq_some_iff.mp htext]⟩
  · exact ⟨ready, hgains.here, hleads.locate, hleads.not_directory⟩

theorem others (h : Delivering d p g change) (place : Place) (hplace : place ≠ d.spelledPlace p) :
    change.disk.tree.contents? place = d.tree.contents? place := by
  by_contra hchanged
  obtain ⟨ready, hhere, hlocate, -⟩ := h.exists_ready hchanged
  exact hplace ((eq_spelledPlace_of_locate hlocate).trans (spelledPlace_congr hhere p))

theorem here (h : Delivering d p g change) : change.disk.here = d.here := by
  cases h with
  | blocked _ _ hgains => exact hgains.here
  | taken _ _ hgains _ _ => exact hgains.here
  | written _ _ hgains _ => exact hgains.here
  | broken _ _ hgains _ _ _ => exact hgains.here
  | _ => rfl

theorem specialAt_of_taken {ready : Disk} {place : Place} {device : Device}
    (hgains : d.GainsDirectories ready) (hlocate : ready.locate p = .ok place)
    (hnode : ready.tree.node? place = some (.special device)) : d.SpecialAt p :=
  hgains.specialAt_iff.mp ⟨device, eq_spelledPlace_of_locate hlocate ▸ hnode⟩

theorem holds (h : Delivering d p g change) {done : Delivery} (hdone : change.result = .ok done)
    (hkept : g = none ∨ ¬ d.SpecialAt p) : change.disk.contentsAt? p = g.map String.toUTF8 := by
  cases h with
  | unreadable _ _ => cases hdone
  | unchanged hsame => exact hsame
  | skipped hnone => exact hnone
  | removed _ hleads => exact hleads.contentsAt?_withoutFile
  | blocked _ _ _ => cases hdone
  | taken _ _ hgains hlocate hnode =>
      exact absurd (specialAt_of_taken hgains hlocate hnode) (hkept.resolve_left (by simp))
  | written _ _ _ hleads => exact hleads.contentsAt?_withFile
  | broken _ _ _ _ _ _ => cases hdone

/-- A delivery that fails has made directories at most, or a write has broken off. -/
theorem failed (h : Delivering d p g change) {error : Error}
    (herror : change.result = .error error) : d.GainsDirectories change.disk ∨
      ∃ text fault, g = some text ∧ BreaksOff d p text error change.disk fault := by
  cases h with
  | unreadable _ _ => exact Or.inl (.refl d)
  | blocked _ _ hgains => exact Or.inl hgains
  | @broken text other ready place fault _ _ hgains hleads hfault htaken =>
      refine Or.inr ⟨text, fault, rfl, hfault, htaken, (Except.error.inj herror).symm,
        hleads.contentsAt?_withFile, fun other hother => ?_⟩
      rw [← hgains.spelledPlace, ← eq_spelledPlace_of_locate hleads.locate] at hother
      rw [hleads.node?_withFile, if_neg hother]
      exact hgains.tree other
  | _ => cases herror

theorem upToDate (h : Delivering d p g change) :
    d.verify p g = .ok () ↔ change.result = .ok .unchanged ∨ change.result = .ok .skipped := by
  cases h with
  | unreadable hfile hread => simp [verify, existing_of_unreadable hfile hread]
  | @unchanged text hsame => simp [(settled (g := some text) hsame).1]
  | skipped hnone => simp [(settled (g := none) hnone).1]
  | removed hfound _ => simp [verify_of_ne (existing_of_text hfound) (g := none) (by simp)]
  | blocked hexisting hother _ => simp [verify_of_ne hexisting hother]
  | taken hexisting hother _ _ _ => simp [verify_of_ne hexisting hother]
  | written hexisting hother _ _ => simp [verify_of_ne hexisting hother]
  | broken hexisting hother _ _ _ _ => simp [verify_of_ne hexisting hother]

end Delivering

end MarkerIndex.Disk
