import MarkerIndex.Proofs.ListedSources
/-!
Two loadings side by side. Where the paths of one crate stand for those of another, one for one, and
related paths have the same texts, the second loading goes through a round for each round of the
first, and its files are the same at the related paths.
-/

namespace MarkerIndex

/-- How the paths of one crate stand for those of another. -/
structure PathRelation where
  file : FilePath → FilePath → Prop
  directory : FilePath → FilePath → Prop
  unique : Relator.BiUnique file

namespace PathRelation

variable (R : PathRelation)

/-- The same module is declared at related places. -/
structure Pending (next next' : PendingModule) : Prop where
  module : next'.module = next.module
  candidates : List.Forall₂ (fun a b => R.file a.1 b.1 ∧ R.directory a.2 b.2)
    next.candidates next'.candidates

/-- The same file lies at related places. -/
structure Placed (p q : MarkerIndex.Placed) : Prop where
  path : R.file p.file.path q.file.path
  directory : R.directory p.directory q.directory
  module : q.file.module = p.file.module
  items : q.file.items = p.file.items
  isRoot : q.file.isRoot = p.file.isRoot

structure State (s s' : Loader.State) : Prop where
  pending : List.Forall₂ R.Pending s.pending s'.pending
  placed : List.Forall₂ R.Placed s.placed s'.placed

variable {R}

theorem State.visited {s s' : Loader.State} (h : R.State s s') :
    List.Forall₂ R.file s.visited s'.visited := by
  rw [Loader.State.visited, Loader.State.visited, List.forall₂_map_left_iff,
    List.forall₂_map_right_iff]
  exact h.placed.imp fun _ _ hplaced => hplaced.path

end PathRelation

namespace Loader

variable {l l' : Loader} {R : PathRelation} {Good : List Item → Prop}

/-- Related paths have the same texts, and good items declare related modules at related places. -/
structure Simulates (l l' : Loader) (R : PathRelation) (Good : List Item → Prop) : Prop where
  parse : l'.parse = l.parse
  read : ∀ path path', R.file path path' → ∀ text, l.read path = .ok text → l'.read path' = .ok text
  declares : ∀ p q, R.Placed p q → Good p.file.items →
    List.Forall₂ R.Pending (p.file.declaredModules p.directory) (q.file.declaredModules q.directory)

namespace Simulates

variable (sim : Simulates l l' R Good) {visited visited' : List FilePath}
  {candidates candidates' : List (FilePath × FilePath)}

include sim

/-- A search in one crate finds what the search in the other finds. -/
theorem find {found : Option FoundFile} (hvisited : List.Forall₂ R.file visited visited')
    (hcandidates : List.Forall₂ (fun a b => R.file a.1 b.1 ∧
      R.directory a.2 b.2) candidates candidates')
    (h : l.find visited candidates = .ok found) :
    ∃ found', l'.find visited' candidates' = .ok found' ∧
      Option.Rel (fun f f' => R.file f.path f'.path ∧ R.directory f.directory f'.directory ∧
        f'.text = f.text) found found' := by
  induction hcandidates with
  | nil =>
      cases h
      exact ⟨none, rfl, .none⟩
  | @cons candidate candidate' candidates candidates' hfirst hrest ih =>
      obtain ⟨hpath, hdirectory⟩ := hfirst
      -- one search has met the candidate just when the other has, so both end here or neither does
      have hmet : visited'.contains candidate'.1 = visited.contains candidate.1 := by
        rw [Bool.eq_iff_iff, List.contains_iff_mem, List.contains_iff_mem]
        exact (List.rel_mem R.unique hpath hvisited).symm
      simp only [Loader.find] at h ⊢
      rw [hmet]
      split at h
      · next hcontains =>
          cases h
          exact ⟨none, by rw [if_pos hcontains], .none⟩
      · next hcontains =>
          rw [if_neg hcontains]
          cases hread : l.read candidate.1 with
          | error error =>
              rw [hread] at h
              cases h
          | ok text =>
              rw [hread] at h
              rw [sim.read _ _ hpath text hread]
              cases text with
              | none => exact ih h
              | some text =>
                  cases h
                  exact ⟨_, rfl, .some ⟨hpath, hdirectory, rfl⟩⟩

theorem add {s s' : State} {p q : Placed} (hstate : R.State s s') (hplaced : R.Placed p q)
    (hgood : Good p.file.items) : R.State (s.add p) (s'.add q) where
  pending := List.rel_append (List.rel_reverse (sim.declares p q hplaced hgood)) hstate.pending
  placed := .cons hplaced hstate.placed

/-- Each round in one crate has one in the other. -/
theorem step {s s' after : State} (hstate : R.State s s') (h : l.Step s after)
    (hgood : ∀ p ∈ after.placed, Good p.file.items) :
    ∃ after', l'.Step s' after' ∧ R.State after after' := by
  obtain ⟨pending', placed'⟩ := s'
  have hvisited := hstate.visited
  cases h with
  | @skip after next hnone =>
      obtain ⟨hpending, hplaced⟩ := hstate
      cases hpending with
      | @cons _ next' _ pending' hnext hpending =>
          obtain ⟨found', hfind, hfound⟩ := sim.find hvisited hnext.candidates hnone
          cases hfound
          exact ⟨_, .skip (s := ⟨pending', placed'⟩) hfind, hpending, hplaced⟩
  | @load s next found items hsome hitems =>
      obtain ⟨hpending, hplaced⟩ := hstate
      cases hpending with
      | @cons _ next' _ pending' hnext hpending =>
          obtain ⟨found', hfind, hfound⟩ := sim.find hvisited hnext.candidates hsome
          cases hfound with
          | @some _ found' hrelated =>
              obtain ⟨hpath, hdirectory, htext⟩ := hrelated
              have hitems' : l'.parse found'.text = .ok items := by rw [sim.parse, htext, hitems]
              have hadded : R.Placed ⟨⟨found.path, next.module, items, false⟩, found.directory⟩
                  ⟨⟨found'.path, next'.module, items, false⟩, found'.directory⟩ :=
                ⟨hpath, hdirectory, hnext.module, rfl, rfl⟩
              exact ⟨_, .load (s := ⟨pending', placed'⟩) hfind hitems',
                sim.add ⟨hpending, hplaced⟩ hadded (hgood _ List.mem_cons_self)⟩

theorem steps {s s' finish : State} (hstate : R.State s s')
    (h : Relation.ReflTransGen l.Step s finish) (hgood : ∀ p ∈ finish.placed, Good p.file.items) :
    ∃ finish', Relation.ReflTransGen l'.Step s' finish' ∧ R.State finish finish' := by
  induction h using Relation.ReflTransGen.head_induction_on generalizing s' with
  | refl => exact ⟨s', .refl, hstate⟩
  | head hstep hlater ih =>
      obtain ⟨after', hstep', hafter⟩ := sim.step hstate hstep fun p hp =>
        hgood p (Addition.placed_subset hlater hp)
      obtain ⟨finish', hsteps', hfinish⟩ := ih hafter
      exact ⟨finish', .head hstep' hsteps', hfinish⟩

/-- A loading of one crate that comes to its end has one of the other beside it. -/
theorem loads {root root' : FilePath} {placed : List Placed} (h : l.Loads root placed)
    (hroot : R.file root root') (hdirectory : R.directory root.directory root'.directory)
    (hgood : ∀ p ∈ placed, Good p.file.items) :
    ∃ placed', l'.Loads root' placed' ∧ List.Forall₂ R.Placed placed placed' := by
  cases h with
  | @ends text items finish htext hitems hsteps hend =>
      have hread : l.read root = .ok (some text) := by
        unfold text? at htext
        split at htext
        · next read hread => rw [hread, htext]
        · cases htext
      have htext' : l'.text? root' = some text := by rw [text?, sim.read _ _ hroot _ hread]
      have horigin : R.Placed (.ofRoot root items) (.ofRoot root' items) :=
        ⟨hroot, hdirectory, rfl, rfl, rfl⟩
      have hstart : R.State (start root items) (start root' items) :=
        sim.add ⟨.nil, .nil⟩ horigin
          (hgood _ (Addition.placed_subset hsteps List.mem_cons_self))
      obtain ⟨finish', hsteps', hfinish⟩ := sim.steps hstart hsteps hgood
      have hend' : finish'.pending = [] := by
        have hpending := hfinish.pending
        rw [hend] at hpending
        exact List.forall₂_nil_left_iff.mp hpending
      exact ⟨_, .ends htext' (sim.parse ▸ hitems) hsteps' hend', hfinish.placed⟩

end Simulates

end Loader

end MarkerIndex
