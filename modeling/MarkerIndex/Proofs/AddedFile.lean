import MarkerIndex.Proofs.LoadedFiles
/-!
A file that is added to the sources of a crate, for a module that is declared but had no file. The
loading goes through the same rounds as before, except that the declaration of the module, which was
dropped, now loads the file.
-/

namespace MarkerIndex

namespace Loader

section

variable {l l' : Loader} {visited visited' : List FilePath}
  {candidates : List (FilePath × FilePath)}

/-- A search depends on which of its candidates were met, and on the texts of the others. -/
theorem find_congr (hmet : ∀ candidate ∈ candidates,
    (candidate.1 ∈ visited' ↔ candidate.1 ∈ visited))
    (hread : ∀ candidate ∈ candidates, candidate.1 ∉ visited →
      l'.read candidate.1 = l.read candidate.1) :
    l'.find visited' candidates = l.find visited candidates := by
  induction candidates with
  | nil => rfl
  | cons candidate candidates ih =>
      obtain ⟨hvisited, hmet⟩ := List.forall_mem_cons.mp hmet
      obtain ⟨hfirst, hread⟩ := List.forall_mem_cons.mp hread
      by_cases h : candidate.1 ∈ visited
      · simp [find, h, hvisited]
      · simp only [find, hfirst h, ih hmet hread, List.contains_iff_mem, hvisited]

/-- A search finds nothing where no candidate can be read. -/
theorem find_of_absent (h : ∀ candidate ∈ candidates, l.read candidate.1 = .ok none) :
    l.find visited candidates = .ok none := by
  induction candidates with
  | nil => rfl
  | cons candidate candidates ih =>
      obtain ⟨hread, hrest⟩ := List.forall_mem_cons.mp h
      simp only [find, hread, ih hrest, ite_self]

variable {path directory : FilePath}

/-- Where one path alone can be read, a search finds it, with its directory. -/
theorem find_of_present {text : String} (hread : l.read path = .ok (some text))
    (hothers : ∀ candidate ∈ candidates, candidate.1 ≠ path → l.read candidate.1 = .ok none)
    (hfresh : ∀ candidate ∈ candidates, candidate.1 ∉ visited)
    (hcandidate : candidates.find? (fun candidate => candidate.1 = path) = some (path, directory)) :
    l.find visited candidates = .ok (some ⟨path, directory, text⟩) := by
  induction candidates with
  | nil => simp at hcandidate
  | cons candidate candidates ih =>
      obtain ⟨first, own⟩ := candidate
      obtain ⟨hfirst, hrest⟩ := List.forall_mem_cons.mp hothers
      obtain ⟨hnew, hfresh⟩ := List.forall_mem_cons.mp hfresh
      have hcontains : visited.contains first = false := by simpa using hnew
      by_cases hpath : first = path
      · subst hpath
        obtain rfl : own = directory := by simpa using hcandidate
        simp only [find, hcontains, Bool.false_eq_true, ↓reduceIte, hread]
      · rw [List.find?_cons_of_neg (by simpa using hpath)] at hcandidate
        simp only [find, hcontains, Bool.false_eq_true, ↓reduceIte, hfirst hpath]
        exact ih hrest hfresh hcandidate

/-- Once that path was loaded, the search ends at it. -/
theorem find_of_visited (hothers : ∀ candidate ∈ candidates, candidate.1 ≠ path →
      l.read candidate.1 = .ok none) (hvisited : path ∈ visited) :
    l.find visited candidates = .ok none := by
  induction candidates with
  | nil => rfl
  | cons candidate candidates ih =>
      obtain ⟨hfirst, hrest⟩ := List.forall_mem_cons.mp hothers
      by_cases hpath : candidate.1 = path
      · have hcontains : visited.contains candidate.1 = true := by simpa [hpath] using hvisited
        simp only [find, hcontains, ↓reduceIte]
      · simp only [find, hfirst hpath, ih hrest, ite_self]

end

/-- Declarations without any file are dropped, one after another. -/
theorem steps_of_absent {l : Loader} {s : State} {vacant : List PendingModule}
    (h : ∀ m ∈ vacant, ∀ candidate ∈ m.candidates, l.read candidate.1 = .ok none) :
    Relation.ReflTransGen l.Step ⟨vacant ++ s.pending, s.placed⟩ s := by
  induction vacant with
  | nil => exact .refl
  | cons m vacant ih =>
      obtain ⟨hm, hrest⟩ := List.forall_mem_cons.mp h
      exact .head (.skip (s := ⟨vacant ++ s.pending, s.placed⟩) (find_of_absent hm)) (ih hrest)

/-- The second loader reads one file more, the added one. Its module was declared without any file,
and it declares no modules that lie in files. -/
structure Addition (l l' : Loader) (next : PendingModule) (added : Placed) : Prop where
  parse : l'.parse = l.parse
  absent : ∀ candidate ∈ next.candidates, l.read candidate.1 = .ok none
  others : ∀ path, path ≠ added.file.path → l'.read path = l.read path
  present : ∃ text, l'.read added.file.path = .ok (some text) ∧ l.parse text = .ok added.file.items
  candidate : next.candidates.find? (fun candidate => candidate.1 = added.file.path) =
    some (added.file.path, added.directory)
  file : added.file = ⟨added.file.path, next.module, added.file.items, false⟩
  declares : added.file.declaredModules added.directory = []

/-- States of two loadings, where the second may have loaded one file more. -/
inductive Grown (added : Placed) : State → State → Prop
  | before (s : State) : Grown added s s
  | after {s : State} {newer older : List Placed} : s.placed = newer ++ older →
      Grown added s ⟨s.pending, newer ++ added :: older⟩

namespace Grown

variable {added : Placed} {s s' : State}

/-- The same declarations are pending in both, and stay so as the next is dropped. -/
theorem drop {other : PendingModule} (h : Grown added ⟨other :: s.pending, s.placed⟩ s') :
    ∃ rest, s' = ⟨other :: rest.pending, rest.placed⟩ ∧ Grown added s rest := by
  cases h with
  | before => exact ⟨s, rfl, .before s⟩
  | @after newer older hplaced => exact ⟨⟨s.pending, newer ++ added :: older⟩, rfl, .after hplaced⟩

/-- The same file may be loaded in both. -/
theorem add (h : Grown added s s') (file : Placed) : Grown added (s.add file) (s'.add file) := by
  cases h with
  | before => exact .before _
  | @after newer older hplaced =>
      have hmore : (s.add file).placed = (file :: newer) ++ older := by
        simpa [State.add] using hplaced
      exact .after hmore

end Grown

namespace Addition

variable {l l' : Loader} {next : PendingModule} {added origin : Placed} {s s' after : State}

theorem read_path (addition : Addition l l' next added) :
    l.read added.file.path = .ok none := by
  have hmember := List.mem_of_find?_eq_some addition.candidate
  exact addition.absent _ hmember

/-- What was loaded before is not among the candidates of the added file. -/
theorem not_mem_visited (addition : Addition l l' next added) (inv : l.Invariant origin s) :
    ∀ candidate ∈ next.candidates, candidate.1 ∉ s.visited := by
  intro candidate hcandidate hvisited
  have htext := inv.isSome_text? _ hvisited
  simp [text?, addition.absent candidate hcandidate] at htext

/-- The declared module has the added file now. -/
theorem file?_eq (addition : Addition l l' next added) :
    next.file? l'.text? = some (added.file.path, added.directory) := by
  rw [PendingModule.file?, ← addition.candidate, ← List.head?_filter, ← List.head?_filter]
  refine congrArg List.head? (List.filter_congr fun candidate hcandidate => ?_)
  by_cases hpath : candidate.1 = added.file.path
  · obtain ⟨text, hread, -⟩ := addition.present
    simp [text?, hpath, hread]
  · simp [text?, hpath, addition.others _ hpath, addition.absent candidate hcandidate]

theorem read_others (addition : Addition l l' next added) :
    ∀ candidate ∈ next.candidates, candidate.1 ≠ added.file.path →
      l'.read candidate.1 = .ok none := by
  intro candidate hcandidate hpath
  rw [addition.others _ hpath, addition.absent candidate hcandidate]

/-- Another declaration is searched for as before. -/
theorem find_other (addition : Addition l l' next added) (hgrown : Grown added s s')
    {other : PendingModule} (hother : ∀ candidate ∈ other.candidates,
      candidate.1 ≠ added.file.path) :
    l'.find s'.visited other.candidates = l.find s.visited other.candidates := by
  refine find_congr (fun candidate hcandidate => ?_)
    fun candidate hcandidate _ => addition.others _ (hother candidate hcandidate)
  have hpath := hother candidate hcandidate
  cases hgrown with
  | before => exact Iff.rfl
  | after hplaced => simp [State.visited, hplaced, hpath]

/-- Where the first loading drops the declaration of the module, the second loads the file, or has
loaded it already and drops the declaration too. -/
theorem step_next (addition : Addition l l' next added)
    (inv : l.Invariant origin ⟨next :: after.pending, after.placed⟩) {rest : State}
    (hgrown : Grown added after rest) :
    ∃ after', l'.Step ⟨next :: rest.pending, rest.placed⟩ after' ∧ Grown added after after' := by
  cases hgrown with
  | before =>
      obtain ⟨text, hread, hitems⟩ := addition.present
      have hfound : l'.find after.visited next.candidates =
          .ok (some ⟨added.file.path, added.directory, text⟩) :=
        find_of_present hread addition.read_others
          (addition.not_mem_visited (s := ⟨next :: after.pending, after.placed⟩) inv)
            addition.candidate
      have hload := Step.load (s := after) hfound (addition.parse ▸ hitems)
      rw [← addition.file] at hload
      refine ⟨_, hload, ?_⟩
      rw [State.add, addition.declares]
      exact .after (show after.placed = [] ++ after.placed from rfl)
  | @after newer older hplaced =>
      have hdropped :
          l'.find (State.visited ⟨after.pending, newer ++ added :: older⟩) next.candidates =
          .ok none :=
        find_of_visited addition.read_others (by simp [State.visited])
      exact ⟨_, .skip hdropped, .after hplaced⟩

/-- The second loading has a round for each round of the first. -/
theorem step (addition : Addition l l' next added) (inv : l.Invariant origin s)
    (hgrown : Grown added s s')
    (honly : ∀ other ∈ s.pending, added.file.path ∈ other.candidates.map (·.1) → other = next)
    (hstep : l.Step s after) : ∃ after', l'.Step s' after' ∧ Grown added after after' := by
  cases hstep with
  | @skip _ other hfind =>
      obtain ⟨rest, rfl, hrest⟩ := hgrown.drop
      by_cases hmember : added.file.path ∈ other.candidates.map (·.1)
      · obtain rfl : other = next := honly other List.mem_cons_self hmember
        exact addition.step_next inv hrest
      · have hother : ∀ candidate ∈ other.candidates, candidate.1 ≠ added.file.path :=
          fun candidate hcandidate hpath =>
            hmember (List.mem_map.mpr ⟨candidate, hcandidate, hpath⟩)
        exact ⟨rest, .skip ((addition.find_other hrest hother).trans hfind), hrest⟩
  | @load s other found items hfind hitems =>
      obtain ⟨rest, rfl, hrest⟩ := hgrown.drop
      have hother : ∀ candidate ∈ other.candidates, candidate.1 ≠ added.file.path := by
        intro candidate hcandidate hpath
        obtain rfl : other = next :=
          honly other List.mem_cons_self (List.mem_map.mpr ⟨candidate, hcandidate, hpath⟩)
        rw [find_of_absent addition.absent] at hfind
        cases hfind
      have hfind' := (addition.find_other hrest hother).trans hfind
      exact ⟨_, .load hfind' (addition.parse ▸ hitems), hrest.add _⟩

theorem placed_subset {finish : State} (hsteps : Relation.ReflTransGen l.Step s finish) :
    s.placed ⊆ finish.placed := by
  induction hsteps with
  | refl => exact List.Subset.refl _
  | tail _ hstep ih =>
      cases hstep with
      | skip _ => exact ih
      | load _ _ => exact List.Subset.trans ih (List.subset_cons_self _ _)

theorem steps (addition : Addition l l' next added) {finish : State}
    (honly : ∀ p ∈ finish.placed, ∀ other, p.Declares other →
      added.file.path ∈ other.candidates.map (·.1) → other = next)
    (hsteps : Relation.ReflTransGen l.Step s finish) (inv : l.Invariant origin s)
    (hgrown : Grown added s s') :
    ∃ finish', Relation.ReflTransGen l'.Step s' finish' ∧ Grown added finish finish' := by
  induction hsteps using Relation.ReflTransGen.head_induction_on generalizing s' with
  | refl => exact ⟨s', .refl, hgrown⟩
  | head hstep hlater ih =>
      have hsub := placed_subset (.head hstep hlater)
      obtain ⟨after', hstep', hgrown'⟩ := addition.step inv hgrown
        (fun other hother hmember => by
          obtain ⟨p, hp, hdeclares⟩ := inv.declared other hother
          exact honly p (hsub hp) other hdeclares hmember) hstep
      obtain ⟨finish', hsteps', hend⟩ := ih (inv.step hstep) hgrown'
      exact ⟨finish', .head hstep' hsteps', hend⟩

end Addition

/-- With the added file a loading comes to the same end as before, and the added file is loaded. -/
theorem Loads.added {l l' : Loader} {root : FilePath} {placed : List Placed} {next : PendingModule}
    {added : Placed} (hloads : l.Loads root placed) (addition : Addition l l' next added)
    (hroot : added.file.path ≠ root) (hdeclared : ∃ p ∈ placed, p.Declares next)
    (honly : ∀ p ∈ placed, ∀ other, p.Declares other →
      added.file.path ∈ other.candidates.map (·.1) → other = next) :
    ∃ newer older, placed = newer ++ older ∧ l'.Loads root (newer ++ added :: older) := by
  have hclosure := hloads.isModuleClosure
  cases hloads with
  | @ends text items finish htext hparse hsteps hend =>
      obtain ⟨finish', hsteps', hgrown⟩ :=
        addition.steps honly hsteps (Invariant.start htext hparse) (.before _)
      have htext' : l'.text? root = some text := by
        rw [← htext, text?, text?, addition.others root (Ne.symm hroot)]
      have hend' : finish'.pending = [] := by
        cases hgrown <;> exact hend
      have hloads' : l'.Loads root finish'.placed :=
        .ends htext' (addition.parse ▸ hparse) hsteps' hend'
      cases hgrown with
      | after hplaced => exact ⟨_, _, hplaced, hloads'⟩
      | before =>
          -- the declaration of the module would not have been followed
          obtain ⟨p, hp, hdeclares⟩ := hdeclared
          have hfile := addition.file?_eq
          obtain ⟨q, hq, hpath⟩ := hloads'.isModuleClosure.complete p hp next hdeclares _ hfile
          obtain ⟨text, hread, -⟩ := hclosure.read q hq
          simp [hpath, text?, addition.read_path] at hread

end Loader

end MarkerIndex
