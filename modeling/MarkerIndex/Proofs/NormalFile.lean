import MarkerIndex.Proofs.NormalPlace
/-!
The normal form of a path that leads to a file. A path can only be followed where there is something
to go up to at every step up, and taking the normal form takes back such steps with the names in
front of them. So the normal form can be followed too, to the same file, and what stands in front of
its last name is the directory of the file, unless nothing stands there.
-/

namespace MarkerIndex

open FilePath

/-- What a directory lies in is a directory. -/
theorem FileTree.of_append {t : FileTree} {place : Place} {names : List String}
    (hnode : t.node? (place ++ names) = some .directory) : t.node? place = some .directory := by
  induction names using List.reverseRecOn with
  | nil => simpa using hnode
  | append_singleton above last ih =>
      rw [← List.append_assoc] at hnode
      exact ih (of_concat hnode)

namespace Disk

variable {d : Disk} {lead : List Component} {names : List String} {p : FilePath}
  {place next : Place}

/-- What a path that can be followed begins with: the root of the disk, or as many steps up from
here as there are directories above. -/
def SetsOut (d : Disk) (lead : List Component) : Prop :=
  lead = [.root] ∨ d.tree.node? d.here = some .directory ∧
    ∃ up ≤ d.here.length, lead = List.replicate up .parent

theorem SetsOut.isOutset (h : d.SetsOut lead) : IsOutset lead := by
  rcases h with rfl | ⟨-, up, -, rfl⟩
  · exact ⟨0, Or.inr rfl⟩
  · exact ⟨up, Or.inl rfl⟩

/-- One more step up is possible where the steps so far do not lead to the root. -/
theorem SetsOut.concat (h : d.SetsOut lead) (hplace : lead.foldl Component.go d.here ≠ []) :
    d.SetsOut (lead ++ [.parent]) := by
  rcases h with rfl | ⟨hhere, up, hup, rfl⟩
  · exact absurd rfl hplace
  · refine Or.inr ⟨hhere, up + 1, ?_, (List.replicate_succ').symm⟩
    have hlength : up ≠ d.here.length := by
      rintro rfl
      rw [foldl_go_replicate, Nat.sub_self, List.take_zero] at hplace
      exact hplace rfl
    omega

/-- A stretch of a path is gone through as its component changes the normal form. -/
theorem setsOut_step (hlead : d.SetsOut lead) {stretch : List Char}
    (h : step d.tree (lead.foldl Component.go d.here ++ names) (String.ofList stretch) = .ok next) :
    ∃ (lead' : List Component) (names' : List String), d.SetsOut lead' ∧
      next = lead'.foldl Component.go d.here ++ names' ∧
      (Component.ofName? stretch).toList.foldl normalStep (lead ++
        names.map Component.normal).reverse =
        (lead' ++ names'.map Component.normal).reverse := by
  have hnext := eq_go_of_step h
  cases hname : Component.ofName? stretch with
  | none =>
      rw [hname] at hnext
      exact ⟨lead, names, hlead, hnext, rfl⟩
  | some c =>
      rw [hname] at hnext
      cases c with
      | root | current =>
          simp only [Component.ofName?] at hname
          split at hname
          · cases hname
          · split at hname <;> cases hname
      | normal name =>
          refine ⟨lead, names ++ [name], hlead, by simpa [Component.go] using hnext, ?_⟩
          simp [normalStep_normal]
      | parent =>
          have hne := ne_nil_of_step_parent h hname
          rcases normalStep_parent hlead.isOutset names with
              ⟨above, last, rfl, hdone⟩ | ⟨rfl, -, hdone⟩
          · refine ⟨lead, above, hlead, ?_, by simpa using hdone⟩
            rw [hnext, ← List.append_assoc]
            exact List.dropLast_concat
          · rw [List.append_nil] at hne
            refine ⟨lead ++ [.parent], [], hlead.concat hne, ?_, by simpa using hdone⟩
            rw [hnext, List.append_nil, List.append_nil, List.foldl_append]
            rfl

/-- All of a path is gone through as its components change the normal form. -/
theorem setsOut_of_foldlM_step (hlead : d.SetsOut lead) (names : List String)
    {stretches : List (List Char)}
    (h : (stretches.map String.ofList).foldlM (step d.tree)
      (lead.foldl Component.go d.here ++ names) = .ok next) :
    ∃ (lead' : List Component) (names' : List String), d.SetsOut lead' ∧
      (stretches.filterMap Component.ofName?).foldl normalStep (lead ++
        names.map Component.normal).reverse =
        (lead' ++ names'.map Component.normal).reverse := by
  induction stretches generalizing lead names with
  | nil => exact ⟨lead, names, hlead, rfl⟩
  | cons stretch stretches ih =>
      obtain ⟨stop, hstep, hmore⟩ := Traversal.foldlM_cons_eq_ok_iff.mp h
      obtain ⟨lead', names', hlead', rfl, hdone⟩ := setsOut_step hlead hstep
      obtain ⟨last, rest, hlast, hrest⟩ := ih hlead' names' hmore
      refine ⟨last, rest, hlast, ?_⟩
      rw [← hrest, ← hdone]
      cases hname : Component.ofName? stretch <;> simp [hname]

/-- The normal form of a path that can be followed. -/
theorem setsOut_normalize (h : d.locate p = .ok place) :
    ∃ lead names, d.SetsOut lead ∧ AreNames names ∧ p.normalize = spelled lead names := by
  obtain ⟨lead, names, hlead, hcomponents⟩ : ∃ (lead : List Component) (names : List String),
      d.SetsOut lead ∧ normalComponents p.components = lead ++ names.map Component.normal := by
    have hstart := start_of_locate h
    rw [locate_eq_follow (ne_empty_of_locate h)] at h
    rw [normalComponents, components, componentsOf_eq, List.foldl_append]
    rcases leadOf_cases p with ⟨habsolute, hfirst⟩ | ⟨hrelative, hfirst⟩
    · rw [if_pos habsolute] at h
      have hroot : d.SetsOut [.root] := Or.inl rfl
      obtain ⟨lead, names, hlead, hdone⟩ := setsOut_of_foldlM_step hroot [] h
      refine ⟨lead, names, hlead, ?_⟩
      rw [hfirst, ← List.reverse_reverse (lead ++ _), ← hdone]
      rfl
    · rw [hrelative] at h hstart
      have hhere : d.SetsOut [] := Or.inr ⟨hstart, 0, Nat.zero_le _, rfl⟩
      obtain ⟨lead, names, hlead, hdone⟩ :=
        setsOut_of_foldlM_step hhere [] ((congrArg (follow d.tree · _) (List.append_nil _)).trans h)
      refine ⟨lead, names, hlead, ?_⟩
      rw [← List.reverse_reverse (lead ++ _), ← hdone]
      rcases hfirst with hfirst | hfirst <;> rw [hfirst] <;> rfl
  refine ⟨lead, names, hlead, fun name hname => ?_,
    by rw [FilePath.normalize, hcomponents, spelled]⟩
  have member : Component.normal name ∈ normalComponents p.components := by
    rw [hcomponents]
    exact List.mem_append_right _ (List.mem_map_of_mem hname)
  obtain ⟨cs, hcs, hsame | hsame⟩ := spellable_normalComponents p
  · exact hcs _ (hsame ▸ member)
  · rw [hsame] at member
    exact hcs _ (by simpa using member)

theorem follow_parent {t : FileTree} (hplace : t.node? place = some .directory) (hne : place ≠ []) :
    follow t place "..".toList = .ok place.dropLast := by
  have hstep : step t place ".." = .ok place.dropLast := by
    rw [step, hplace]
    simp [hne]
  simpa [follow, splitSlashes] using hstep

theorem locate_name {name : String} (hname : (Component.normal name).IsName)
    (hhere : d.tree.node? d.here = some .directory) : d.locate ⟨name⟩ = .ok (d.here ++ [name]) := by
  have hne : name ≠ "" := by
    rintro rfl
    exact absurd hname (by decide)
  rw [locate_eq_follow hne, isAbsolute_name hname]
  exact follow_of_isName hname hhere

/-- Steps up lead to the directory that lies so far up. -/
theorem locate_ups
    (hhere : d.tree.node? d.here = some .directory) {up : Nat}
    (hup : up < d.here.length) : d.locate (spelled (List.replicate (up + 1) .parent) []) =
      .ok ((List.replicate (up + 1) Component.parent).foldl Component.go d.here) := by
  have hgo (up : Nat) : (List.replicate (up + 1) Component.parent).foldl Component.go d.here =
      ((List.replicate up Component.parent).foldl Component.go d.here).dropLast := by
    rw [List.replicate_succ', List.foldl_append]
    rfl
  have hjoin (up : Nat) : spelled (List.replicate (up + 1) .parent) [] =
      (spelled (List.replicate up .parent) []).join ⟨".."⟩ := by
    rw [spelled, spelled, List.replicate_succ', List.map_nil, List.append_nil,
      List.append_nil, ofComponents, List.foldl_append]
    rfl
  -- one more step up is joined at the end of the path, where the way up has led to a directory
  induction up with
  | zero =>
      have hne : d.here ≠ [] := List.length_pos_iff.mp hup
      exact follow_parent hhere hne
  | succ up ih =>
      have hstop := ih (by omega)
      have hne : (List.replicate (up + 1) Component.parent).foldl Component.go d.here ≠ [] := by
        rw [foldl_go_replicate, ← List.length_pos_iff, List.length_take]
        omega
      rw [hjoin, locate_join_eq (ne_empty_of_locate hstop) (by decide), hstop, hgo (up + 1)]
      exact follow_parent (FileTree.node?_ups hhere _) hne

/-- Where a path sets out from is a directory. -/
theorem SetsOut.node? (h : d.SetsOut lead) :
    d.tree.node? (lead.foldl Component.go d.here) = some .directory := by
  rcases h with rfl | ⟨hhere, up, -, rfl⟩
  · rfl
  · exact FileTree.node?_ups hhere up

theorem SetsOut.locate (h : d.SetsOut lead) (hne : lead ≠ []) :
    d.locate (spelled lead []) = .ok (lead.foldl Component.go d.here) := by
  rcases h with rfl | ⟨hhere, up, hup, rfl⟩
  · simp [spelled, ofComponents, FilePath.join, Component.text, isAbsolute, Disk.locate,
      splitSlashes, step, bind, Except.bind, pure, Except.pure, Component.go]
  · cases up with
    | zero => exact absurd rfl hne
    | succ up => exact locate_ups hhere hup

/-- Names lead down through directories, to a place where nothing needs to lie. -/
theorem SetsOut.locate_concat (hlead : d.SetsOut lead) {name : String}
    (hname : (Component.normal name).IsName)
    (hplace : d.tree.node? (lead.foldl Component.go d.here ++ names) = some .directory) :
    d.locate (spelled lead names / name) =
      .ok (lead.foldl Component.go d.here ++ names ++ [name]) := by
  induction names using List.reverseRecOn generalizing name with
  | nil =>
      rw [List.append_nil] at hplace ⊢
      by_cases hne : lead = []
      · subst hne
        have hjoin : spelled [] [] / name = ⟨name⟩ := empty_join rfl ⟨name⟩
        rw [hjoin]
        exact locate_name hname hplace
      · exact locate_join (hlead.locate hne) hplace hname
  | append_singleton above last ih =>
      have hlast : (Component.normal last).IsName :=
        FileTree.areNames_of_node? hplace last (by simp)
      rw [← List.append_assoc] at hplace ⊢
      rw [spelled_concat]
      exact locate_join (ih hlast (FileTree.of_concat hplace)) hplace hname

theorem exists_spelling (hfile : d.isFile p = true) :
    ∃ lead above name, d.SetsOut lead ∧ AreNames (above ++ [name]) ∧
      p.normalize = spelled lead (above ++ [name]) ∧
      d.spelledPlace p = lead.foldl Component.go d.here ++ above ++ [name] ∧
      d.tree.node? (lead.foldl Component.go d.here ++ above) = some .directory := by
  rw [isFile_eq, Option.isSome_iff_exists] at hfile
  obtain ⟨contents, hcontents⟩ := hfile
  obtain ⟨place, hlocate, hnode⟩ := exists_of_contentsAt? hcontents
  obtain ⟨lead, names, hlead, hnames, hnormal⟩ := setsOut_normalize hlocate
  have hplace : place = lead.foldl Component.go d.here ++ names := by
    rw [eq_spelledPlace_of_locate hlocate, ← spelledPlace_normalize, hnormal,
      spelledPlace_spelled d hlead.isOutset hnames]
  rcases List.eq_nil_or_concat' names with rfl | ⟨above, name, rfl⟩
  · rw [hplace, List.append_nil, hlead.node?] at hnode
    cases hnode
  · rw [← List.append_assoc] at hplace
    refine ⟨lead, above, name, hlead, hnames, hnormal, ?_, FileTree.of_concat (hplace ▸ hnode)⟩
    rw [← hplace, ← eq_spelledPlace_of_locate hlocate]

/-- The normal form leads to the file. -/
theorem locate_normalize (hfile : d.isFile p = true) :
    d.locate p.normalize = .ok (d.spelledPlace p) := by
  obtain ⟨lead, above, name, hlead, hnames, hnormal, hplace, hdirectory⟩ := exists_spelling hfile
  rw [hnormal, hplace, spelled_concat]
  exact hlead.locate_concat (hnames name (by simp)) hdirectory

/-- What stands in front of its last name leads to the directory of the file, unless nothing stands
there. -/
theorem locate_directory_normalize (hfile : d.isFile p = true)
    (hne : p.normalize.directory.text ≠ "") :
    d.locate p.normalize.directory = .ok (d.spelledPlace p).dropLast ∧
      d.tree.node? (d.spelledPlace p).dropLast = some .directory := by
  obtain ⟨lead, above, name, hlead, hnames, hnormal, hplace, hdirectory⟩ := exists_spelling hfile
  rw [hnormal, directory_spelled_concat hlead.isOutset hnames] at hne ⊢
  rw [hplace, List.dropLast_concat]
  refine ⟨?_, hdirectory⟩
  rcases List.eq_nil_or_concat' above with rfl | ⟨upper, last, rfl⟩
  · rw [List.append_nil]
    refine hlead.locate fun hnone => hne ?_
    rw [hnone]
    rfl
  · rw [← List.append_assoc] at hdirectory ⊢
    rw [spelled_concat]
    exact hlead.locate_concat (hnames last (by simp)) (FileTree.of_concat hdirectory)

end Disk

end MarkerIndex
