import MarkerIndex.Proofs.ModuleFiles
/-!
A file of a crate that is divided: one of the modules written in place in it becomes a file of its
own. What the two files declare is what the one declared, and the module. So the files of the crate
and the one more are closed under their declarations, and a loading takes them up, if in another
order.
-/

namespace MarkerIndex

/-- The file with other items, if it is the one at the path. -/
def SourceFile.replaced (path : FilePath) (items : List Item) (f : SourceFile) : SourceFile :=
  { f with items := if f.path = path then items else f.items }

def Placed.replaced (path : FilePath) (items : List Item) (p : Placed) : Placed :=
  ⟨p.file.replaced path items, p.directory⟩

theorem Placed.replaced_of_ne {path : FilePath} {items : List Item} {p : Placed}
    (h : p.file.path ≠ path) : p.replaced path items = p := by
  simp only [Placed.replaced, SourceFile.replaced, if_neg h]

/-- A file `p` of a crate is divided. It is left with `items`, in which the module `next` is
declared that gets a file of its own. -/
structure Division (text? text?' : FilePath → Option String)
    (parse : String → Except Grammar.Failure (List Item)) (placed : List Placed) (p : Placed)
    (items : List Item) (next : PendingModule) (added : Placed) : Prop where
  member : p ∈ placed
  follows : ∀ q ∈ placed, ∀ other, q.Declares other → ∃ above name, other.Follows above name
  nextFollows : ∃ above name, next.Follows above name
  absent : ∀ candidate ∈ next.candidates, text? candidate.1 = none
  candidate : (added.file.path, added.directory) ∈ next.candidates
  module : added.file.module = next.module
  notRoot : added.file.isRoot = false
  others : ∀ path, path ≠ p.file.path → path ≠ added.file.path → text?' path = text? path
  remaining : ∃ text, text?' p.file.path = some text ∧ parse text = .ok items
  extracted : ∃ text, text?' added.file.path = some text ∧ parse text = .ok added.file.items
  declares : (p.replaced p.file.path items).Declares next
  divided : ∀ other, p.Declares other →
    (p.replaced p.file.path items).Declares other ∨ added.Declares other
  kept : ∀ other, (p.replaced p.file.path items).Declares other → p.Declares other ∨ other = next
  moved : ∀ other, added.Declares other → p.Declares other

namespace Division

variable {text? text?' : FilePath → Option String}
  {parse : String → Except Grammar.Failure (List Item)} {placed : List Placed} {p added : Placed}
  {items : List Item} {next : PendingModule} {root : FilePath}

section

variable (division : Division text? text?' parse placed p items next added)

include division

/-- No other declaration may mean the file of the module. -/
theorem eq_next {other : PendingModule} (hother : ∃ above name, other.Follows above name)
    (hpath : added.file.path ∈ other.candidates.map (·.1)) : other = next := by
  obtain ⟨_, _, hother⟩ := hother
  obtain ⟨_, _, hnext⟩ := division.nextFollows
  have hcandidate : added.file.path ∈ next.candidates.map (·.1) :=
    List.mem_map.mpr ⟨_, division.candidate, rfl⟩
  exact hother.eq_of_path hnext hpath hcandidate

/-- The file of the module is no root of a crate. -/
theorem added_not_root : ¬ (added.file.isRoot = true ∨ added.file.module = .crateRoot) := by
  obtain ⟨_, _, hnext⟩ := division.nextFollows
  rw [division.notRoot, division.module, hnext.module]
  simp [ItemPath.crateRoot, ItemPath.extend]

variable (closure : IsModuleClosure text? parse root placed)

include closure

/-- The file of the module was not there before. -/
theorem path_ne {q : Placed} (hq : q ∈ placed) : added.file.path ≠ q.file.path := by
  intro hsame
  obtain ⟨text, htext, -⟩ := closure.read q hq
  have habsent : text? added.file.path = none := division.absent _ division.candidate
  rw [hsame, htext] at habsent
  cases habsent

theorem isSome_text? : (text? p.file.path).isSome = true ∧ (text?' p.file.path).isSome = true := by
  obtain ⟨text, htext, -⟩ := closure.read p division.member
  obtain ⟨text', htext', -⟩ := division.remaining
  simp [htext, htext']

/-- No other candidate of the module is there. -/
theorem absent' {candidate : FilePath × FilePath} (hcandidate : candidate ∈ next.candidates)
    (hne : candidate.1 ≠ added.file.path) : text?' candidate.1 = none := by
  have habsent := division.absent candidate hcandidate
  have hpath : candidate.1 ≠ p.file.path := by
    intro hsame
    have hpresent := (division.isSome_text? closure).1
    rw [← hsame, habsent] at hpresent
    cases hpresent
  rw [division.others _ hpath hne, habsent]

/-- The module has its own file now. -/
theorem file?_next : next.file? text?' = some (added.file.path, added.directory) := by
  obtain ⟨above, name, hnext⟩ := division.nextFollows
  have hfirst : (next.file? text?').isSome = true := by
    obtain ⟨text, htext, -⟩ := division.extracted
    exact List.find?_isSome.mpr ⟨_, division.candidate, by simp [htext]⟩
  obtain ⟨found, hfound⟩ := Option.isSome_iff_exists.mp hfirst
  have hmember : found ∈ next.candidates := List.mem_of_find?_eq_some hfound
  have htext : (text?' found.1).isSome = true := by
    rw [PendingModule.file?] at hfound
    simpa only using List.find?_some hfound
  have hpath : found.1 = added.file.path := by
    by_contra hne
    simp [division.absent' closure hmember hne] at htext
  have hdirectory : found.2 = added.directory :=
    (hnext.directory hmember).trans (hnext.directory division.candidate).symm
  rw [hfound, ← hpath, ← hdirectory]

/-- Every other declaration means what it meant. -/
theorem file?_other {other : PendingModule} (hother : ∃ above name, other.Follows above name)
    (hne : other ≠ next) : other.file? text?' = other.file? text? := by
  rw [PendingModule.file?, PendingModule.file?, ← List.head?_filter, ← List.head?_filter]
  refine congrArg List.head? (List.filter_congr fun candidate hcandidate => ?_)
  have hadded : candidate.1 ≠ added.file.path := by
    intro hpath
    exact hne (division.eq_next hother (List.mem_map.mpr ⟨candidate, hcandidate, hpath⟩))
  by_cases hpath : candidate.1 = p.file.path
  · obtain ⟨htext, htext'⟩ := division.isSome_text? closure
    rw [hpath, htext, htext']
  · rw [division.others _ hpath hadded]

/-- A declaration of the crate means the file that it meant. -/
theorem file?_declared {q : Placed} (hq : q ∈ placed) {other : PendingModule}
    (hdeclares : q.Declares other) {candidate : FilePath × FilePath}
    (hfile : other.file? text? = some candidate) : other.file? text?' = some candidate := by
  have hne : other ≠ next := by
    rintro rfl
    have habsent := division.absent candidate (List.mem_of_find?_eq_some hfile)
    have hpresent := List.find?_some hfile
    simp [habsent] at hpresent
  rw [division.file?_other closure (division.follows q hq other hdeclares) hne, hfile]

/-- A file of the crate is the one that is divided, or it stays as it is. -/
theorem replaced_cases {q : Placed} (hq : q ∈ placed) :
    q = p ∨ (q.file.path ≠ p.file.path ∧ q.replaced p.file.path items = q) := by
  by_cases hpath : q.file.path = p.file.path
  · exact Or.inl (List.inj_on_of_nodup_map closure.distinct hq division.member hpath)
  · exact Or.inr ⟨hpath, Placed.replaced_of_ne hpath⟩

/-- The texts of the files are what was read from them. -/
theorem read {r : Placed} (hr : r ∈ added :: placed.map (Placed.replaced p.file.path items)) :
    ∃ text, text?' r.file.path = some text ∧ parse text = .ok r.file.items := by
  rcases List.mem_cons.mp hr with rfl | hr
  · exact division.extracted
  · obtain ⟨q, hq, rfl⟩ := List.mem_map.mp hr
    rcases division.replaced_cases closure hq with rfl | ⟨hpath, hstays⟩
    · simpa [Placed.replaced, SourceFile.replaced] using division.remaining
    · rw [hstays, division.others _ hpath (division.path_ne closure hq).symm]
      exact closure.read q hq

/-- What the files declare now was declared before, the module apart. -/
theorem declares_before {r : Placed}
    (hr : r ∈ added :: placed.map (Placed.replaced p.file.path items))
    {other : PendingModule} (h : r.Declares other) :
    (∃ q ∈ placed, q.Declares other) ∨ other = next := by
  rcases List.mem_cons.mp hr with rfl | hr
  · exact Or.inl ⟨p, division.member, division.moved other h⟩
  · obtain ⟨q, hq, rfl⟩ := List.mem_map.mp hr
    rcases division.replaced_cases closure hq with rfl | ⟨-, hstays⟩
    · exact (division.kept other h).imp_left fun hbefore => ⟨q, hq, hbefore⟩
    · rw [hstays] at h
      exact Or.inl ⟨q, hq, h⟩

/-- The module's file is reached from the file that declares it. -/
theorem fromRoot_added (h : (p.replaced p.file.path items).FromRoot text?'
      (added :: placed.map (Placed.replaced p.file.path items))) :
    added.FromRoot text?' (added :: placed.map (Placed.replaced p.file.path items)) :=
  .declared h division.declares (division.file?_next closure) division.module division.notRoot
    List.mem_cons_self

/-- A file that was reached from the root is reached still. -/
theorem fromRoot_replaced {q : Placed} (hq : q.FromRoot text? placed) :
    (q.replaced p.file.path items).FromRoot text?'
      (added :: placed.map (Placed.replaced p.file.path items)) := by
  have hstill : ∀ r ∈ placed, r.replaced p.file.path items ∈
      added :: placed.map (Placed.replaced p.file.path items) := fun r hr =>
    List.mem_cons_of_mem _ (List.mem_map_of_mem hr)
  induction hq with
  | root member hroot hmodule => exact .root (hstill _ member) hroot hmodule
  | @declared q r other hfrom hdeclares hfile hmodule hinner member ih =>
      have hfile' := division.file?_declared closure hfrom.mem hdeclares hfile
      rcases division.replaced_cases closure hfrom.mem with rfl | ⟨-, hstays⟩
      · -- what the divided file declared is declared in one of its two parts
        rcases division.divided other hdeclares with houter | hinside
        · exact .declared ih houter hfile' hmodule hinner (hstill r member)
        · exact .declared (division.fromRoot_added closure ih) hinside hfile' hmodule hinner
            (hstill r member)
      · rw [hstays] at ih
        exact .declared ih hdeclares hfile' hmodule hinner (hstill r member)

/-- The files with the one divided are closed under their declarations. -/
theorem isModuleClosure : IsModuleClosure text?' parse root
    (added :: placed.map (Placed.replaced p.file.path items)) := by
  let files := added :: placed.map (Placed.replaced p.file.path items)
  have hreplaced : ∀ q ∈ placed, q.replaced p.file.path items ∈ files := fun q hq =>
    List.mem_cons_of_mem _ (List.mem_map_of_mem hq)
  constructor
  case distinct =>
    have hpaths : files.map (·.file.path) = added.file.path :: placed.map (·.file.path) := by
      simp [files, Placed.replaced, SourceFile.replaced, Function.comp_def]
    rw [hpaths]
    refine List.nodup_cons.mpr ⟨fun member => ?_, closure.distinct⟩
    obtain ⟨q, hq, hpath⟩ := List.mem_map.mp member
    exact division.path_ne closure hq hpath.symm
  case root =>
    obtain ⟨origin, horigin, hisRoot, hmodule, hpath, hdirectory, hunique⟩ := closure.root
    refine ⟨_, hreplaced origin horigin, hisRoot, hmodule, hpath, hdirectory, ?_⟩
    intro r hr hroot
    rcases List.mem_cons.mp hr with rfl | hr
    · exact absurd hroot division.added_not_root
    · obtain ⟨q, hq, rfl⟩ := List.mem_map.mp hr
      rw [hunique q hq hroot]
  case read => exact fun r hr => division.read closure hr
  case sound =>
    intro r hr
    rcases List.mem_cons.mp hr with rfl | hr
    · exact division.fromRoot_added closure
        (division.fromRoot_replaced closure (closure.sound p division.member))
    · obtain ⟨q, hq, rfl⟩ := List.mem_map.mp hr
      exact division.fromRoot_replaced closure (closure.sound q hq)
  case complete =>
    intro r hr other hdeclares candidate hcandidate
    by_cases hnext : other = next
    · subst hnext
      rw [division.file?_next closure] at hcandidate
      exact ⟨added, List.mem_cons_self, congrArg Prod.fst (Option.some.inj hcandidate)⟩
    · obtain ⟨q, hq, hbefore⟩ := (division.declares_before closure hr hdeclares).resolve_right hnext
      rw [division.file?_other closure (division.follows q hq other hbefore) hnext] at hcandidate
      obtain ⟨s, hs, hpath⟩ := closure.complete q hq other hbefore candidate hcandidate
      exact ⟨_, hreplaced s hs, hpath⟩

/-- All their declarations that may mean a file say the same of it. -/
theorem coherent :
    Coherent text?' (added :: placed.map (Placed.replaced p.file.path items)) := by
  refine (division.isModuleClosure closure).coherent fun r hr other hdeclares => ?_
  rcases division.declares_before closure hr hdeclares with ⟨q, hq, hbefore⟩ | rfl
  · exact division.follows q hq other hbefore
  · exact division.nextFollows

end

end Division

end MarkerIndex
