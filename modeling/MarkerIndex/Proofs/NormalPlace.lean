import MarkerIndex.Proofs.NormalPath
/-!
Where paths in normal form lead. The normal form of a path leads where the path leads, and a file
has only finitely many of them: one from the root, and one for each directory between the root and
here that a path may first go up to.
-/

namespace MarkerIndex

namespace FilePath

open Component

variable {lead : List Component} {above names : List String} {p q : FilePath}

theorem componentsBelow?_eq_some_iff {base cs below : List Component} :
    componentsBelow? base cs = some below ↔ cs = base ++ below := by
  fun_induction componentsBelow? base cs with
  | case1 cs => simp [eq_comm]
  | case2 => simp
  | case3 bs c cs ih => simpa using ih
  | case4 b bs c cs hne =>
      simp only [List.cons_append, List.cons.injEq, reduceCtorEq, false_iff, not_and]
      exact fun hsame => absurd hsame.symm hne

theorem below?_spelled (hlead : IsOutset lead) (hnames : AreNames (above ++ names)) :
    (spelled lead (above ++ names)).below? (spelled lead above) = some (names.map .normal) := by
  rw [below?, components_spelled hlead hnames, components_spelled hlead hnames.of_append.1,
    componentsBelow?_eq_some_iff, List.map_append, List.append_assoc]

end FilePath

namespace FileTree

theorem of_concat {t : FileTree} {place : Place} {name : String} {node : FileNode}
    (hnode : t.node? (place ++ [name]) = some node) : t.node? place = some .directory := by
  have hup := parent hnode
  rwa [List.dropLast_concat] at hup

/-- Going up from a directory leads to directories. -/
theorem node?_ups {t : FileTree} {place : Place} (hplace : t.node? place = some .directory)
    (up : Nat) :
    t.node? ((List.replicate up Component.parent).foldl Component.go place) = some .directory := by
  induction up generalizing place with
  | zero => exact hplace
  | succ up ih => exact ih (parent hplace)

end FileTree

namespace Disk

open FilePath

variable {d : Disk} {lead : List Component} {names : List String} {p : FilePath} {place : Place}

theorem foldl_go_map (names : List String) (place : Place) :
    (names.map Component.normal).foldl Component.go place = place ++ names := by
  induction names generalizing place with
  | nil => simp
  | cons name names ih =>
      rw [List.map_cons, List.foldl_cons, ih, Component.go, List.append_assoc]
      rfl

theorem spelledPlace_spelled (d : Disk) (hlead : IsOutset lead) (hnames : AreNames names) :
    d.spelledPlace (spelled lead names) = lead.foldl Component.go d.here ++ names := by
  rw [spelledPlace_eq, components_spelled hlead hnames, List.foldl_append, foldl_go_map]

/-- A step of taking the normal form leads on as the component does. -/
theorem foldl_go_normalStep (place : Place) (done : List Component) (c : Component) :
    (normalStep done c).reverse.foldl Component.go place =
      Component.go (done.reverse.foldl Component.go place) c := by
  unfold normalStep
  split
  · rfl
  · rw [List.reverse_cons, List.foldl_append]
    simp [Component.go]
  · rw [List.reverse_cons, List.foldl_append]
    rfl

/-- Taking the normal form does not change where components lead. -/
theorem foldl_go_normalComponents (cs : List Component) (place : Place) :
    (normalComponents cs).foldl Component.go place = cs.foldl Component.go place := by
  have hsteps : ∀ cs done : List Component,
      (cs.foldl normalStep done).reverse.foldl Component.go place =
        cs.foldl Component.go (done.reverse.foldl Component.go place) := by
    intro cs
    induction cs with
    | nil => exact fun done => rfl
    | cons c cs ih =>
        intro done
        rw [List.foldl_cons, ih, foldl_go_normalStep, List.foldl_cons]
  exact hsteps cs []

/-- The normal form of a path leads where the path leads. -/
theorem spelledPlace_normalize (d : Disk) (p : FilePath) :
    d.spelledPlace p.normalize = d.spelledPlace p := by
  rw [spelledPlace_eq, spelledPlace_eq, components_normalize, foldl_go_normalComponents]

theorem spelledPlace_join (d : Disk) (p : FilePath) {name : String}
    (hname : (Component.normal name).IsName) :
    d.spelledPlace (p / name) = d.spelledPlace p ++ [name] := by
  have hjoin : p / name = p.join ⟨(Component.normal name).text⟩ := rfl
  rw [spelledPlace_eq, spelledPlace_eq, hjoin, components_join p hname, List.foldl_append]
  rfl

/-- Follows the stretches of a text. -/
def follow (t : FileTree) (place : Place) (cs : List Char) : Except FileProblem Place :=
  ((splitSlashes cs).map String.ofList).foldlM (step t) place

theorem locate_eq_follow (hp : p.text ≠ "") :
    d.locate p = follow d.tree (if p.isAbsolute then [] else d.here) p.text.toList := by
  rw [locate, if_neg (by simpa using hp), follow]

/-- Whatever is followed is followed from a directory. -/
theorem node?_of_follow {t : FileTree} {cs : List Char} {next : Place}
    (h : follow t place cs = .ok next) :
    t.node? place = some .directory := by
  obtain ⟨name, names, hsplit⟩ := List.exists_cons_of_ne_nil (splitSlashes_ne_nil cs)
  rw [follow, hsplit, List.map_cons] at h
  obtain ⟨stop, hstep, -⟩ := Traversal.foldlM_cons_eq_ok_iff.mp h
  exact directory_of_step hstep

theorem follow_append (t : FileTree) (place : Place) (cs ds : List Char) :
    follow t place (cs ++ '/' :: ds) = (follow t place cs).bind (follow t · ds) := by
  rw [follow, splitSlashes_append, List.map_append, List.foldlM_append]
  rfl

/-- Nothing is gone through in front of a slash. What it needs is needed anyway. -/
theorem follow_nil_bind (t : FileTree) (place : Place) (cs : List Char) :
    (follow t place []).bind (follow t · cs) = follow t place cs := by
  obtain ⟨name, names, hsplit⟩ := List.exists_cons_of_ne_nil (splitSlashes_ne_nil cs)
  have hstays : follow t place [] = step t place "" := bind_pure (step t place "")
  rw [hstays]
  cases hnode : t.node? place with
  | none => simp [follow, hsplit, step, hnode, bind, Except.bind]
  | some node =>
      cases node with
      | directory => simp [step, hnode, Except.bind]
      | file contents => simp [follow, hsplit, step, hnode, bind, Except.bind]
      | special device => simp [follow, hsplit, step, hnode, bind, Except.bind]

/-- What is joined to a path is followed from where the path leads. -/
theorem locate_join_eq {q : FilePath} (hp : p.text ≠ "") (hq : q.isAbsolute = false) :
    d.locate (p.join q) = (d.locate p).bind (follow d.tree · q.text.toList) := by
  obtain ⟨front, hchars, hfront⟩ := exists_front_of_join hp hq
  have hjoined : (p.join q).text ≠ "" := by
    intro hnil
    rw [hnil] at hchars
    simp at hchars
  rw [locate_eq_follow hjoined, locate_eq_follow hp, isAbsolute_join hp hq, hchars, follow_append]
  rcases hfront with hsame | hslash
  · rw [hsame]
  · rw [hslash, follow_append]
    cases follow d.tree (if p.isAbsolute then [] else d.here) front with
    | error problem => rfl
    | ok stop => exact (follow_nil_bind d.tree stop q.text.toList).symm

/-- What a path goes through can be followed too, and is a directory. -/
theorem exists_locate_of_join {q : FilePath} (hp : p.text ≠ "") (hq : q.isAbsolute = false)
    (h : d.locate (p.join q) = .ok place) :
    ∃ base, d.locate p = .ok base ∧ d.tree.node? base = some .directory := by
  rw [locate_join_eq hp hq] at h
  cases hbase : d.locate p with
  | error problem =>
      rw [hbase] at h
      cases h
  | ok base =>
      rw [hbase] at h
      exact ⟨base, rfl, node?_of_follow h⟩

theorem ne_empty_of_locate (h : d.locate p = .ok place) : p.text ≠ "" := by
  intro hempty
  simp [locate, hempty] at h

/-- A path that can be followed is followed from a directory. -/
theorem start_of_locate (h : d.locate p = .ok place) :
    d.tree.node? (if p.isAbsolute then [] else d.here) = some .directory := by
  rw [locate_eq_follow (ne_empty_of_locate h)] at h
  exact node?_of_follow h

/-- What a path goes on from is a directory, if the whole can be followed. -/
theorem node?_of_locate_join {q : FilePath} (hq : q.isAbsolute = false)
    (h : d.locate (p.join q) = .ok place) : d.tree.node? (d.spelledPlace p) = some .directory := by
  by_cases hempty : p.text = ""
  · have hhere : d.spelledPlace p = d.here := by
      rw [spelledPlace_eq, components, hempty]
      rfl
    have hstart := start_of_locate h
    rw [empty_join hempty, hq] at hstart
    rw [hhere]
    exact hstart
  · obtain ⟨base, hbase, hnode⟩ := exists_locate_of_join hempty hq h
    rw [← eq_spelledPlace_of_locate hbase]
    exact hnode

theorem follow_of_isName {t : FileTree} {name : String} (hname : (Component.normal name).IsName)
    (hplace : t.node? place = some .directory) :
    follow t place name.toList = .ok (place ++ [name]) := by
  have hstretch : splitSlashes name.toList = [name.toList] := splitSlashes_name hname.1
  have hplain : name ≠ "" ∧ name ≠ "." ∧ name ≠ ".." := by
    refine ⟨?_, ?_, ?_⟩
    all_goals
      rintro rfl
      exact absurd hname (by decide)
  simp [follow, hstretch, step, hplace, hplain, bind, Except.bind, pure, Except.pure]

/-- From a directory a name leads to a place in it, also where nothing lies there. -/
theorem locate_join {name : String} (h : d.locate p = .ok place)
    (hplace : d.tree.node? place = some .directory) (hname : (Component.normal name).IsName) :
    d.locate (p / name) = .ok (place ++ [name]) := by
  have hjoin : p / name = p.join ⟨name⟩ := rfl
  rw [hjoin, locate_join_eq (ne_empty_of_locate h) (isAbsolute_name hname), h]
  exact follow_of_isName hname hplace

/-- Nothing goes up from the root. -/
theorem ne_nil_of_step_parent {t : FileTree} {name : List Char} {next : Place}
    (h : step t place (String.ofList name) = .ok next)
    (hname : Component.ofName? name = some .parent) :
    place ≠ [] := by
  have hup : name = ['.', '.'] := by
    simp only [Component.ofName?] at hname
    split at hname
    · cases hname
    · split at hname
      · assumption
      · cases hname
  subst hup
  rw [step, directory_of_step h] at h
  rintro rfl
  simp at h

/-- A path that first goes up can only be followed from deep enough. -/
theorem ups_le_of_foldlM_step {t : FileTree} {stretches : List (List Char)} {next : Place}
    {up : Nat} {rest : List Component}
    (h : (stretches.map String.ofList).foldlM (step t) place = .ok next)
    (hnames : stretches.filterMap Component.ofName? = List.replicate up .parent ++ rest) :
    up ≤ place.length := by
  induction stretches generalizing place up with
  | nil =>
      cases up with
      | zero => exact Nat.zero_le _
      | succ up => simp [List.replicate_succ] at hnames
  | cons name stretches ih =>
      obtain ⟨stop, hstep, hmore⟩ := Traversal.foldlM_cons_eq_ok_iff.mp h
      have hstop := eq_go_of_step hstep
      cases hname : Component.ofName? name with
      | none =>
          -- an empty stretch or a dot leads nowhere
          rw [List.filterMap_cons_none hname] at hnames
          obtain rfl : stop = place := by rw [hstop, hname]; rfl
          exact ih hmore hnames
      | some c =>
          rw [List.filterMap_cons_some hname] at hnames
          cases up with
          | zero => exact Nat.zero_le _
          | succ up =>
              rw [List.replicate_succ, List.cons_append, List.cons.injEq] at hnames
              obtain ⟨rfl, hnames⟩ := hnames
              rw [hname] at hstop
              have hroom : up ≤ stop.length := ih hmore hnames
              have hlength : stop.length = place.length - 1 := by
                rw [hstop]
                exact List.length_dropLast
              have hne := List.length_pos_iff.mpr (ne_nil_of_step_parent hstep hname)
              omega

/-- How far up a path may go that can be followed. -/
theorem ups_le_of_locate (hlead : IsOutset lead) (hnames : AreNames names)
    (h : d.locate (spelled lead names) = .ok place) :
    (∃ up ≤ d.here.length, lead = List.replicate up .parent) ∨ lead = [.root] := by
  have hcomponents :
      leadOf (spelled lead names).text.toList ++ namesOf (spelled lead names).text.toList =
      lead ++ names.map .normal := by
    rw [← componentsOf_eq, ← components_spelled hlead hnames, components]
  have hspecial : ∀ up, ∀ c ∈ List.replicate up Component.parent ++ names.map .normal,
      c ≠ .root ∧ c ≠ .current := by
    intro up c member
    rcases List.mem_append.mp member with hup | hname
    · simp [List.eq_of_mem_replicate hup]
    · obtain ⟨name, -, rfl⟩ := List.mem_map.mp hname
      simp
  unfold locate at h
  split at h
  · cases h
  · obtain ⟨up, rfl | rfl⟩ := hlead
    · rcases leadOf_cases (spelled (List.replicate up .parent) names) with
        ⟨-, hfirst⟩ | ⟨hrelative, hfirst | hfirst⟩
      · exact absurd rfl (hspecial up _ (by rw [← hcomponents, hfirst]; simp)).1
      · rw [hfirst, List.nil_append] at hcomponents
        rw [hrelative] at h
        exact Or.inl ⟨up, ups_le_of_foldlM_step h hcomponents, rfl⟩
      · exact absurd rfl (hspecial up _ (by rw [← hcomponents, hfirst]; simp)).2
    · rcases leadOf_cases (spelled (.root :: List.replicate up .parent) names) with
        ⟨habsolute, hfirst⟩ | ⟨-, hfirst | hfirst⟩
      · rw [hfirst, List.cons_append, List.cons_append, List.cons.injEq] at hcomponents
        rw [habsolute] at h
        have hnone : up ≤ 0 := ups_le_of_foldlM_step h hcomponents.2
        obtain rfl : up = 0 := by omega
        exact Or.inr rfl
      · rw [hfirst, List.nil_append] at hcomponents
        have hroot : Component.root.IsName := isName_of_mem_namesOf _ (by rw [hcomponents]; simp)
        exact absurd hroot (by decide)
      · rw [hfirst] at hcomponents
        cases hcomponents

/-- The normal forms of the paths of all entries, from the root and from the directories above here.
-/
def spellings (d : Disk) : List FilePath :=
  d.tree.entries.flatMap fun entry =>
    spelled [.root] entry.1 :: (List.range (d.here.length + 1)).map fun up =>
      spelled (List.replicate up .parent) (entry.1.drop (d.here.length - up))

theorem length_spellings (d : Disk) : d.spellings.length = d.loadLimit := by
  simp [spellings, loadLimit, List.length_flatMap]

theorem foldl_go_replicate (up : Nat) (place : Place) :
    (List.replicate up Component.parent).foldl Component.go place =
      place.take (place.length - up) := by
  induction up generalizing place with
  | zero => simp
  | succ up ih =>
      rw [List.replicate_succ, List.foldl_cons, ih, Component.go, List.dropLast_eq_take,
        List.take_take, List.length_take]
      congr 1
      omega

/-- What a path in normal form leads to, and is no directory, has that path among its spellings. -/
theorem mem_spellings (hp : p.IsNormal) (hlocate : d.locate p = .ok place) {node : FileNode}
    (hnode : d.tree.node? place = some node) (hne : node ≠ .directory) : p ∈ d.spellings := by
  obtain ⟨lead, names, hlead, hnames, rfl⟩ := hp
  have hplace : place ≠ [] := FileTree.ne_nil_of_node? (t := d.tree) (by simpa [hnode] using hne)
  have hspelled := eq_spelledPlace_of_locate hlocate
  rw [spelledPlace_spelled d hlead hnames] at hspelled
  refine List.mem_flatMap.mpr ⟨(place, node), FileTree.mem_entries_of_node? hplace hnode, ?_⟩
  rcases ups_le_of_locate hlead hnames hlocate with ⟨up, hup, rfl⟩ | rfl
  · apply List.mem_cons_of_mem
    refine List.mem_map.mpr ⟨up, List.mem_range.mpr (by omega), ?_⟩
    have hlength : (d.here.take (d.here.length - up)).length = d.here.length - up := by
      rw [List.length_take]
      omega
    rw [hspelled, foldl_go_replicate, List.drop_left' hlength]
  · obtain rfl : place = names := hspelled
    exact List.mem_cons_self

/-- A path that only goes up leads to no file. -/
theorem names_ne_nil_of_isFile (hlead : IsOutset lead) (hnames : AreNames names)
    (hfile : d.isFile (spelled lead names) = true) : names ≠ [] := by
  rintro rfl
  rw [isFile_eq, Option.isSome_iff_exists] at hfile
  obtain ⟨contents, hcontents⟩ := hfile
  obtain ⟨place, hlocate, hnode⟩ := exists_of_contentsAt? hcontents
  have hplace := eq_spelledPlace_of_locate hlocate
  rw [spelledPlace_spelled d hlead hnames, List.append_nil] at hplace
  have hdirectory : d.tree.node? place = some .directory := by
    rcases ups_le_of_locate hlead hnames hlocate with ⟨up, -, rfl⟩ | rfl
    · have hrelative : ¬ (spelled (List.replicate up .parent) []).isAbsolute = true := by
        rw [← root_mem_components_iff, components_spelled hlead hnames]
        simp
      have hstart := start_of_locate hlocate
      rw [if_neg hrelative] at hstart
      rw [hplace]
      exact FileTree.node?_ups hstart up
    · rw [hplace]
      rfl
  rw [hdirectory] at hnode
  cases hnode

/-- What a file lies in is one step up from it. -/
theorem spelledPlace_directory (hp : p.IsNormal)
    (hfile : d.isFile p = true) :
    d.spelledPlace p.directory = (d.spelledPlace p).dropLast := by
  obtain ⟨lead, names, hlead, hnames, rfl⟩ := hp
  rcases List.eq_nil_or_concat' names with rfl | ⟨above, name, rfl⟩
  · exact absurd rfl (names_ne_nil_of_isFile hlead hnames hfile)
  · rw [directory_spelled_concat hlead hnames, spelledPlace_spelled d hlead hnames.of_append.1,
      spelledPlace_spelled d hlead hnames, ← List.append_assoc, List.dropLast_concat]

end Disk

end MarkerIndex
