import MarkerIndex.Proofs.LoadedFiles
/-!
Files that are known to be closed under the declarations in them. Where every declaration that may
mean a file gives it the same module and the same directory, a loading takes up these files and no
others, whatever the order in which it meets the declarations.
-/

namespace MarkerIndex

/-- Each declaration in the files says of the file that it means what the others say. -/
def Coherent (text? : FilePath → Option String) (placed : List Placed) : Prop :=
  ∀ p ∈ placed, ∀ next, p.Declares next → ∀ candidate, next.file? text? = some candidate →
    ∀ q ∈ placed, q.file.path = candidate.1 →
      q.file.isRoot = true ∨ (q.file.module = next.module ∧ q.directory = candidate.2)

namespace Loader

variable {l : Loader} {root : FilePath} {placed : List Placed}

/-- A search does not fail where nothing fails to be read. -/
theorem find_isOk (hread : ∀ path, ∃ text, l.read path = .ok text) (visited : List FilePath)
    (candidates : List (FilePath × FilePath)) : ∃ found, l.find visited candidates = .ok found := by
  fun_induction find l visited candidates with
  | case3 path directory others hfresh error herror =>
      obtain ⟨text, htext⟩ := hread path
      rw [herror] at htext
      cases htext
  | case5 path directory others hfresh hread ih => exact ih
  | _ => exact ⟨_, rfl⟩

section

variable (closure : IsModuleClosure l.text? l.parse root placed)
  (coherent : Coherent l.text? placed)

include closure coherent

/-- What is found for a declaration in the files is one of them. -/
theorem mem_of_find {s : State} {next : PendingModule} {found : FoundFile}
    (hroot : root ∈ s.visited) (hsub : s.placed ⊆ placed)
    (hdeclared : ∃ p ∈ s.placed, p.Declares next)
    (hfind : l.find s.visited next.candidates = .ok (some found)) :
    ∃ items, l.parse found.text = .ok items ∧
      ⟨⟨found.path, next.module, items, false⟩, found.directory⟩ ∈ placed := by
  obtain ⟨htext, hfresh⟩ := fresh_of_find hfind
  obtain ⟨p, hp, hdeclares⟩ := hdeclared
  have hfile : next.file? l.text? = some (found.path, found.directory) := find?_of_find hfind
  obtain ⟨q, hq, hpath⟩ := closure.complete p (hsub hp) next hdeclares _ hfile
  obtain ⟨text, hread, hparse⟩ := closure.read q hq
  obtain ⟨origin, horigin, -, -, horiginPath, -, hunique⟩ := closure.root
  have hnotRoot : q.file.isRoot = false := by
    apply Bool.eq_false_iff.mpr
    intro hisRoot
    rw [hunique q hq (Or.inl hisRoot), horiginPath] at hpath
    rw [hpath] at hroot
    exact hfresh hroot
  rcases coherent p (hsub hp) next hdeclares _ hfile q hq hpath with hisRoot | ⟨hmodule, hdirectory⟩
  · rw [hisRoot] at hnotRoot
    cases hnotRoot
  · obtain ⟨⟨path, module, items, isRoot⟩, directory⟩ := q
    subst hpath hmodule hdirectory hnotRoot
    rw [htext] at hread
    obtain rfl := Option.some.inj hread
    exact ⟨items, hparse, hq⟩

/-- From within the files the loop comes to its end, and keeps within them. -/
theorem ends_within {paths : List FilePath}
    (hpaths : ∀ path, (l.text? path).isSome = true → path ∈ paths)
    (hread : ∀ path, ∃ text, l.read path = .ok text) {origin : Placed} (s : State)
    (inv : l.Invariant origin s) (horigin : origin.file.path = root) (hsub : s.placed ⊆ placed) :
    ∃ finish, Relation.ReflTransGen l.Step s finish ∧ finish.pending = [] ∧
    finish.placed ⊆ placed := by
  induction s using (step_wellFounded hpaths).induction with
  | _ s ih =>
      obtain ⟨pending, files⟩ := s
      cases pending with
      | nil => exact ⟨_, .refl, rfl, hsub⟩
      | cons next pending =>
          let s : State := ⟨pending, files⟩
          -- whatever is found is the file of the closure that `next` names
          obtain ⟨found, hfind⟩ := find_isOk hread s.visited next.candidates
          have hafter : ∃ after, l.Step ⟨next :: pending, files⟩ after ∧ after.placed ⊆ placed := by
            cases found with
            | none => exact ⟨s, .skip hfind, hsub⟩
            | some found =>
                have hroot : root ∈ s.visited := List.mem_map.mpr ⟨origin, inv.root, horigin⟩
                obtain ⟨items, hparse, hmember⟩ := mem_of_find closure coherent hroot hsub
                  (inv.declared next (by simp)) hfind
                exact ⟨_, .load (s := s) hfind hparse, List.cons_subset.mpr ⟨hmember, hsub⟩⟩
          obtain ⟨after, hstep, hwithin⟩ := hafter
          obtain ⟨finish, hsteps, hend⟩ := ih after hstep (inv.step hstep) hwithin
          exact ⟨finish, .head hstep hsteps, hend⟩

/-- A loading from the root takes up all the files, in some order. -/
theorem loads_of_closure {paths : List FilePath}
    (hpaths : ∀ path, (l.text? path).isSome = true → path ∈ paths)
    (hread : ∀ path, ∃ text, l.read path = .ok text) :
    ∃ loaded, l.Loads root loaded ∧ loaded.Perm placed := by
  obtain ⟨origin, horigin, hisRoot, hmodule, hpath, hdirectory, hunique⟩ := closure.root
  obtain ⟨text, htext, hparse⟩ := closure.read origin horigin
  have hstart : origin = .ofRoot root origin.file.items := by
    obtain ⟨⟨path, module, items, isRoot⟩, directory⟩ := origin
    simp only at hpath hmodule hdirectory hisRoot
    rw [hpath, hmodule, hdirectory, hisRoot, Placed.ofRoot]
  rw [hpath] at htext
  obtain ⟨finish, hsteps, hend, hwithin⟩ := ends_within closure coherent hpaths hread
    (start root origin.file.items) (.start htext hparse) rfl
    (List.cons_subset.mpr ⟨hstart ▸ horigin, List.nil_subset _⟩)
  have hloads : l.Loads root finish.placed := .ends htext hparse hsteps hend
  have hfinish := hloads.isModuleClosure
  -- each file of the closure is declared from the root on, so the loading comes to it
  have hall : placed ⊆ finish.placed := by
    intro p hp
    have hfrom := closure.sound p hp
    clear hp
    induction hfrom with
    | @root p member hroot _ =>
        obtain ⟨o, ho, hoRoot, -⟩ := hfinish.root
        rwa [hunique p member (Or.inl hroot), ← hunique o (hwithin ho) (Or.inl hoRoot)]
    | @declared q p next _ hdeclares hfile _ _ member ih =>
        obtain ⟨r, hr, hsame⟩ := hfinish.complete q ih next hdeclares _ hfile
        rwa [← List.inj_on_of_nodup_map closure.distinct (hwithin hr) member hsame]
  refine ⟨finish.placed, hloads, ?_⟩
  exact (List.perm_ext_iff_of_nodup (.of_map _ hfinish.distinct) (.of_map _ closure.distinct)).mpr
    fun p => ⟨fun h => hwithin h, fun h => hall h⟩

end

end Loader

/-- Sources that are closed under their declarations are loaded. -/
theorem Corpus.ofSources_of_closure {sources : List (FilePath × String)} {placed : List Placed}
    (closure : IsModuleClosure (textOf? sources) Grammar.parseFile
      (SourceTable.rootAmong sources) placed)
    (coherent : Coherent (textOf? sources) placed) :
    ∃ c, Corpus.ofSources sources = .ok c ∧ c.files.Perm (placed.map (·.file)) := by
  rw [← SourceTable.text?_loader] at closure coherent
  obtain ⟨loaded, hloads, hperm⟩ := Loader.loads_of_closure closure coherent
    (fun path => SourceTable.isSome_lookup_iff.mp) (fun path => ⟨_, rfl⟩)
  have hcorpus := Corpus.ofSources_eq_ok_iff.mpr ⟨loaded, hloads, rfl⟩
  exact ⟨_, hcorpus, (Corpus.files_perm_of_loads hloads hcorpus).trans (hperm.map _)⟩

end MarkerIndex
