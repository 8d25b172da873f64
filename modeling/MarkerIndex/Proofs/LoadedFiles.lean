import MarkerIndex.Proofs.Loading
/-!
The files that a list of sources leads to, as the end of a loading. A crate is loaded just when its
loading comes to an end, and its files are then those of the end. So what a change of the sources
does to a crate can be told from what it does to the rounds of the loading.
-/

namespace MarkerIndex

namespace Loader

/-- A loading from a root file that comes to its end with these files, the newest first. -/
inductive Loads (l : Loader) (root : FilePath) : List Placed → Prop
  | ends {text : String} {items : List Item} {finish : State} : l.text? root = some text →
      l.parse text = .ok items → Relation.ReflTransGen l.Step (start root items) finish →
      finish.pending = [] → Loads l root finish.placed

theorem Loads.isModuleClosure {l : Loader} {root : FilePath} {placed : List Placed}
    (h : l.Loads root placed) : IsModuleClosure l.text? l.parse root placed := by
  cases h with
  | ends htext hparse hsteps hpending =>
      exact ((Invariant.start htext hparse).steps hsteps).isModuleClosure hpending

section

variable {l : Loader} {paths : List FilePath}

/-- Rounds that come to an end make up a run, with room for all the files that can be read. -/
theorem run_of_steps (hpaths : ∀ path, (l.text? path).isSome = true → path ∈ paths)
    {s finish : State}
    (hsteps : Relation.ReflTransGen l.Step s finish) (hend : finish.pending = []) (limit : Nat)
    (hlimit : unread paths s.visited ≤ limit) :
    ∃ loaded, l.run limit s.visited s.pending = ⟨loaded, none⟩ ∧
      finish.placed.map (·.file) = loaded.reverse ++ s.placed.map (·.file) := by
  induction hsteps using Relation.ReflTransGen.head_induction_on generalizing limit with
  | refl => exact ⟨[], by rw [hend, run_nil], by simp⟩
  | head hstep _ ih =>
      cases hstep with
      | @skip s next hfind =>
          obtain ⟨loaded, hrun, hplaced⟩ := ih limit hlimit
          refine ⟨loaded, ?_, hplaced⟩
          rw [← hrun]
          exact run_skip hfind
      | @load s next found items hfind hparse =>
          obtain ⟨htext, hfresh⟩ := fresh_of_find hfind
          have hlt : unread paths (found.path :: s.visited) < unread paths s.visited :=
            unread_cons_lt (hpaths _ (by simp [htext])) hfresh
          -- the file takes up room, and there is one less to be read
          have hbefore : unread paths s.visited ≤ limit := hlimit
          obtain ⟨room, rfl⟩ : ∃ room, limit = room + 1 := ⟨limit - 1, by omega⟩
          have hroom : unread paths (found.path :: s.visited) ≤ room := by omega
          obtain ⟨loaded, hrun, hplaced⟩ := ih room hroom
          let file : SourceFile := ⟨found.path, next.module, items, false⟩
          refine ⟨file :: loaded, ?_, by simpa [State.add, file] using hplaced⟩
          exact run_load hfind hparse rfl hrun

theorem load_of_loads (hpaths : ∀ path, (l.text? path).isSome = true → path ∈ paths) {limit : Nat}
    (hlimit : paths.length ≤ limit) {root : FilePath} {placed : List Placed}
    (h : l.Loads root placed) {text : String} (htext : l.text? root = some text) :
    l.load limit root text = ⟨(placed.map (·.file)).reverse, none⟩ := by
  cases h with
  | @ends text' items finish htext' hparse hsteps hend =>
      obtain rfl : text' = text := Option.some.inj (htext'.symm.trans htext)
      have hroom : unread paths (start root items).visited ≤ limit :=
        (List.length_filter_le _ _).trans hlimit
      obtain ⟨loaded, hrun, hplaced⟩ := run_of_steps hpaths hsteps hend limit hroom
      have hrounds : l.run limit [root]
          ((Placed.ofRoot root items).file.declaredModules root.directory).reverse =
            ⟨loaded, none⟩ := by
        simpa [start, State.add, State.visited, Placed.ofRoot] using hrun
      have hfiles :
          (finish.placed.map (·.file)).reverse = (Placed.ofRoot root items).file :: loaded := by
        simp [hplaced, start, State.add]
      rw [load, hparse, hfiles]
      simp only
      rw [show (⟨root, .crateRoot, items, true⟩ : SourceFile) = (Placed.ofRoot root items).file
        from rfl, hrounds]

/-- A root that declares no modules in files is loaded alone. -/
theorem loads_of_root {root : FilePath} {text : String} {items : List Item}
    (htext : l.text? root = some text) (hparse : l.parse text = .ok items)
    (hdeclares : (Placed.ofRoot root items).file.declaredModules root.directory = []) :
    l.Loads root [.ofRoot root items] := by
  let finish : State := ⟨[], [.ofRoot root items]⟩
  have hstart : start root items = finish := by
    have hdirectory : (Placed.ofRoot root items).directory = root.directory := rfl
    rw [start, State.add, hdirectory, hdeclares]
    rfl
  have hsteps : Relation.ReflTransGen l.Step (start root items) finish := by
    rw [hstart]
  exact .ends htext hparse hsteps rfl

end

end Loader

/-- Of two lists in strict order, the one with one element more has it between the others. -/
theorem exists_split_of_pairwise {α : Type} {r : α → α → Prop}
    (hasymm : ∀ x y, r x y → ¬ r y x) {xs ys : List α} {a : α} (hxs : xs.Pairwise r)
    (hys : ys.Pairwise r) (hperm : ys.Perm (a :: xs)) :
    ∃ before after, xs = before ++ after ∧ ys = before ++ a :: after := by
  obtain ⟨before, after, rfl⟩ := List.append_of_mem (hperm.mem_iff.mpr List.mem_cons_self)
  refine ⟨before, after, ?_, rfl⟩
  have hrest : (before ++ after).Perm xs :=
    (List.perm_middle.symm.trans hperm).cons_inv
  have hsub : (before ++ after).Sublist (before ++ a :: after) :=
    (List.sublist_cons_self a after).append_left before
  apply (hrest.eq_of_pairwise _ (hys.sublist hsub) hxs).symm
  intro x y _ _ hxy hyx
  exact absurd hyx (hasymm x y hxy)

namespace SourceTable

theorem text?_loader (sources : List (FilePath × String)) :
    (ofList sources).loader.text? = textOf? sources :=
  funext (lookup_ofList sources)

/-- The sources lead to these files, the newest first. -/
def Loads (sources : List (FilePath × String)) (placed : List Placed) : Prop :=
  (ofList sources).loader.Loads (rootAmong sources) placed

theorem root?_of_text {sources : List (FilePath × String)} {text : String}
    (h : textOf? sources (rootAmong sources) = some text) :
    (ofList sources).root? = some (rootAmong sources, text) := by
  cases hroot : (ofList sources).root? with
  | some root =>
      obtain ⟨path, found⟩ := root
      obtain ⟨rfl, hfound⟩ := of_root? hroot
      rw [Option.some.inj (hfound.symm.trans h)]
  | none =>
      have hnone : ∀ name ∈ rootNames, textOf? sources name = none := by
        intro name member
        rw [← lookup_ofList]
        simpa using List.findSome?_eq_none_iff.mp hroot name member
      have hmember : rootAmong sources ∈ rootNames := by
        unfold rootAmong rootNames
        split <;> simp
      simp [hnone _ hmember] at h

theorem textOf?_single {path : FilePath} (hnormal : path.normalize = path) (text : String)
    (other : FilePath) :
    textOf? [(path, text)] other = if other = path then some text else none :=
  @textOf?_concat [] path text hnormal other

theorem normalize_library : (FilePath.mk "lib.rs").normalize = ⟨"lib.rs"⟩ := by
  decide +kernel

theorem textOf?_library (text : String) (other : FilePath) :
    textOf? [(⟨"lib.rs"⟩, text)] other = if other = ⟨"lib.rs"⟩ then some text else none :=
  textOf?_single normalize_library text other

theorem rootAmong_library (text : String) : rootAmong [(⟨"lib.rs"⟩, text)] = ⟨"lib.rs"⟩ := by
  simp [rootAmong, normalize_library]

/-- The file of a library that has no others is loaded alone. -/
theorem loads_library {text : String} {items : List Item}
    (hparse : Grammar.parseFile text = .ok items)
    (hdeclares : (Placed.ofRoot ⟨"lib.rs"⟩ items).file.declaredModules ⟨""⟩ = []) :
    Loads [(⟨"lib.rs"⟩, text)] [.ofRoot ⟨"lib.rs"⟩ items] := by
  have htext : textOf? [(⟨"lib.rs"⟩, text)] ⟨"lib.rs"⟩ = some text := by
    rw [textOf?_library, if_pos rfl]
  have hdirectory : FilePath.directory ⟨"lib.rs"⟩ = ⟨""⟩ := by decide +kernel
  rw [Loads, rootAmong_library]
  refine Loader.loads_of_root ?_ hparse (hdirectory ▸ hdeclares)
  rw [text?_loader, htext]

end SourceTable

namespace Corpus

open SourceTable

/-- A crate is loaded just when the loading of its sources comes to an end. -/
theorem ofSources_eq_ok_iff {sources : List (FilePath × String)} {c : Corpus} :
    ofSources sources = .ok c ↔ ∃ placed, Loads sources placed ∧
      c.files = (placed.map (·.file)).reverse.mergeSort fun f g => f.path.le g.path := by
  let l := (ofList sources).loader
  have htext : l.text? = textOf? sources := text?_loader sources
  have hpaths : ∀ path, (l.text? path).isSome = true → path ∈ (ofList sources).paths :=
    fun path => isSome_lookup_iff.mp
  have hroom : (ofList sources).paths.length ≤ (ofList sources).entries.length := by simp [paths]
  constructor
  · intro h
    cases hroot : (ofList sources).root? with
    | none => simp [ofSources, loadTraced, load?, hroot] at h
    | some root =>
        obtain ⟨path, text⟩ := root
        obtain ⟨rfl, hrootText⟩ := of_root? hroot
        let loading := l.load (ofList sources).entries.length (rootAmong sources) text
        have hload : (ofList sources).load? = some loading := by simp [load?, hroot, loading, l]
        have hcorpus : loading.corpus = .ok c := by simpa [ofSources, loadTraced, hload] using h
        obtain ⟨hthrough, hfiles⟩ := Loading.of_corpus hcorpus
        obtain ⟨items, finish, hparse, hsteps, hpending, hplaced⟩ := Loader.load_ends hthrough
        refine ⟨finish.placed, .ends (by rw [htext, hrootText]) hparse hsteps hpending, ?_⟩
        rw [hfiles, hplaced, List.reverse_reverse]
  · rintro ⟨placed, hloads, hfiles⟩
    obtain ⟨text, hrootText⟩ : ∃ text, textOf? sources (rootAmong sources) = some text := by
      cases hloads with
      | ends hrootText => exact ⟨_, htext ▸ hrootText⟩
    have hload : (ofList sources).load? = some ⟨(placed.map (·.file)).reverse, none⟩ := by
      rw [load?, root?_of_text hrootText]
      exact congrArg some (Loader.load_of_loads hpaths hroom hloads (htext ▸ hrootText))
    rw [ofSources, loadTraced, hload]
    simp only [Loading.corpus, ← hfiles]

theorem ofSources_library {text : String} {items : List Item}
    (hparse : Grammar.parseFile text = .ok items)
    (hdeclares : (Placed.ofRoot ⟨"lib.rs"⟩ items).file.declaredModules ⟨""⟩ = []) :
    ofSources [(⟨"lib.rs"⟩, text)] = .ok ⟨[(Placed.ofRoot ⟨"lib.rs"⟩ items).file]⟩ :=
  ofSources_eq_ok_iff.mpr ⟨_, loads_library hparse hdeclares, by simp⟩

/-- The loaded files are those of the crate, in path order. -/
theorem files_of_loads {sources : List (FilePath × String)} {placed : List Placed} {c : Corpus}
    (hloads : Loads sources placed) (h : ofSources sources = .ok c) :
    c.files = (placed.map (·.file)).reverse.mergeSort fun f g => f.path.le g.path := by
  have hfiles : ofSources sources =
      .ok ⟨(placed.map (·.file)).reverse.mergeSort fun f g => f.path.le g.path⟩ :=
    ofSources_eq_ok_iff.mpr ⟨placed, hloads, rfl⟩
  rw [Except.ok.inj (h.symm.trans hfiles)]

theorem files_perm_of_loads {sources : List (FilePath × String)} {placed : List Placed} {c : Corpus}
    (hloads : Loads sources placed) (h : ofSources sources = .ok c) :
    c.files.Perm (placed.map (·.file)) := by
  rw [files_of_loads hloads h]
  exact (List.mergeSort_perm _ _).trans (List.reverse_perm _)

theorem isModuleClosure_of_loads {sources : List (FilePath × String)} {placed : List Placed}
    (h : Loads sources placed) :
    IsModuleClosure (textOf? sources) Grammar.parseFile (rootAmong sources) placed := by
  rw [← text?_loader]
  exact Loader.Loads.isModuleClosure h

/-- The files of a crate are in strict order of their paths. -/
theorem pairwise_ofSources {sources : List (FilePath × String)} {c : Corpus}
    (h : ofSources sources = .ok c) : c.files.Pairwise fun f g => f.path.compare g.path = .lt := by
  obtain ⟨placed, hloads, hfiles⟩ := ofSources_eq_ok_iff.mp h
  rw [hfiles]
  exact (isModuleClosure_of_loads hloads).pairwise_mergeSort (List.reverse_perm _).symm

end Corpus

end MarkerIndex
