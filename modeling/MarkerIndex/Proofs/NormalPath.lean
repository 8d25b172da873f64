import MarkerIndex.Proofs.Disk
/-!
Paths in normal form: steps up, from the root or from here, and then names. Every path has such a
form, it spells the same place, and what is joined to it by name is in normal form again. The
directory of a path that was joined is what it was joined to.
-/

namespace MarkerIndex

namespace Component

/-- The component goes down by a name. -/
def isDown : Component → Bool
  | normal _ => true
  | _ => false

theorem IsName.toList_ne_nil {c : Component} (h : c.IsName) : c.text.toList ≠ [] := by
  intro hnil
  have hname := h.2
  rw [hnil] at hname
  cases hname

theorem IsName.no_slash {c : Component} (h : c.IsName) :
    ∀ a ∈ c.text.toList.reverse, decide (a ≠ '/') = true := by
  intro a member
  have hne : a ≠ '/' := by
    rintro rfl
    exact h.1 (List.mem_reverse.mp member)
  simpa using hne

end Component

namespace FilePath

open Component

/-- What stands in front of the first name of a path. -/
def outset (p : FilePath) : List Component :=
  p.components.takeWhile fun c => !c.isDown

/-- What may stand in front of the names of a path in normal form. -/
def IsOutset (lead : List Component) : Prop :=
  ∃ up, lead = List.replicate up .parent ∨ lead = .root :: List.replicate up .parent

theorem isOutset_nil : IsOutset [] :=
  ⟨0, Or.inl rfl⟩

/-- The path that goes down by names from where it sets out. -/
def spelled (lead : List Component) (names : List String) : FilePath :=
  ofComponents (lead ++ names.map .normal)

/-- A path that is in normal form. -/
def IsNormal (p : FilePath) : Prop :=
  ∃ lead names, IsOutset lead ∧ AreNames names ∧ p = spelled lead names

theorem AreNames.concat {names : List String} (h : AreNames names) {name : String}
    (hname : (Component.normal name).IsName) : AreNames (names ++ [name]) :=
  List.forall_mem_append.mpr ⟨h, by simpa using hname⟩

theorem AreNames.of_append {names more : List String} (h : AreNames (names ++ more)) :
    AreNames names ∧ AreNames more :=
  List.forall_mem_append.mp h

variable {lead : List Component} {names : List String} {p : FilePath}

theorem isName_of_areNames (h : AreNames names) : ∀ c ∈ names.map Component.normal, c.IsName := by
  intro c member
  obtain ⟨name, hname, rfl⟩ := List.mem_map.mp member
  exact h name hname

theorem IsOutset.spellable (hlead : IsOutset lead) (hnames : AreNames names) :
    Spellable (lead ++ names.map .normal) := by
  have hups : ∀ up, ∀ c ∈ List.replicate up Component.parent ++ names.map .normal, c.IsName := by
    intro up c member
    rcases List.mem_append.mp member with hup | hname
    · rw [List.eq_of_mem_replicate hup]
      decide
    · exact isName_of_areNames hnames c hname
  obtain ⟨up, rfl | rfl⟩ := hlead
  · exact ⟨_, hups up, Or.inl rfl⟩
  · exact ⟨_, hups up, Or.inr rfl⟩

theorem components_spelled (hlead : IsOutset lead) (hnames : AreNames names) :
    (spelled lead names).components = lead ++ names.map .normal :=
  components_ofComponents (hlead.spellable hnames)

theorem IsOutset.isDown_eq_false (hlead : IsOutset lead) : ∀ c ∈ lead, (!c.isDown) = true := by
  have hups : ∀ up, ∀ c ∈ List.replicate up Component.parent, (!c.isDown) = true := by
    intro up c member
    rw [List.eq_of_mem_replicate member]
    rfl
  obtain ⟨up, rfl | rfl⟩ := hlead
  · exact hups up
  · exact List.forall_mem_cons.mpr ⟨rfl, hups up⟩

/-- A path in normal form is told by where it sets out and by its names. -/
theorem outset_spelled (hlead : IsOutset lead) (hnames : AreNames names) :
    (spelled lead names).outset = lead := by
  rw [outset, components_spelled hlead hnames, List.takeWhile_append_of_pos hlead.isDown_eq_false]
  cases names with
  | nil => simp
  | cons name names =>
      rw [List.map_cons, List.takeWhile_cons_of_neg (by simp [isDown]), List.append_nil]

theorem spelled_inj {lead' : List Component} {names' : List String} (hlead : IsOutset lead)
    (hnames : AreNames names) (hlead' : IsOutset lead') (hnames' : AreNames names')
    (h : spelled lead names = spelled lead' names') : lead = lead' ∧ names = names' := by
  have hsame : lead = lead' := by
    rw [← outset_spelled hlead hnames, h, outset_spelled hlead' hnames']
  have hcomponents := congrArg components h
  rw [components_spelled hlead hnames, components_spelled hlead' hnames', hsame] at hcomponents
  exact ⟨hsame, List.map_injective_iff.mpr (fun _ _ => Component.normal.inj)
    (List.append_cancel_left hcomponents)⟩

theorem spelled_concat (lead : List Component) (names : List String) (name : String) :
    spelled lead (names ++ [name]) = spelled lead names / name := by
  rw [spelled, spelled, List.map_append, ← List.append_assoc, ofComponents, List.foldl_append]
  rfl

theorem IsNormal.join (h : p.IsNormal) {name : String} (hname : (Component.normal name).IsName) :
    (p / name).IsNormal := by
  obtain ⟨lead, names, hlead, hnames, rfl⟩ := h
  exact ⟨lead, names ++ [name], hlead, hnames.concat hname, (spelled_concat lead names name).symm⟩

theorem normalStep_normal (done : List Component) (name : String) :
    normalStep done (.normal name) = .normal name :: done := by
  unfold normalStep
  split <;> simp_all

/-- A step up takes back a name, or is one more at the front where there is none. -/
theorem normalStep_parent (hlead : IsOutset lead) (names : List String) :
    (∃ above last, names = above ++ [last] ∧
      normalStep (lead ++ names.map Component.normal).reverse parent =
        (lead ++ above.map Component.normal).reverse) ∨
    (names = [] ∧ IsOutset (lead ++ [parent]) ∧
      normalStep (lead ++ names.map Component.normal).reverse parent =
        (lead ++ [parent]).reverse) := by
  rcases List.eq_nil_or_concat names with rfl | ⟨above, last, rfl⟩
  · right
    refine ⟨rfl, ?_, ?_⟩
    · obtain ⟨up, rfl | rfl⟩ := hlead
      · exact ⟨up + 1, Or.inl (List.replicate_succ').symm⟩
      · exact ⟨up + 1, Or.inr (by rw [List.cons_append, ← List.replicate_succ'])⟩
    · have hfirst : ∀ name, lead.reverse.head? ≠ some (.normal name) := by
        intro name hhead
        have hdown := hlead.isDown_eq_false _ (List.mem_reverse.mp (List.mem_of_head? hhead))
        simp [isDown] at hdown
      rw [List.map_nil, List.append_nil, List.reverse_append, List.reverse_singleton]
      cases hdone : lead.reverse with
      | nil => rfl
      | cons c done =>
          cases c with
          | normal name => exact absurd (by rw [hdone]; rfl) (hfirst name)
          | _ => rfl
  · left
    refine ⟨above, last, by simp, ?_⟩
    simp [normalStep]

/-- The components that were gone through so far, the last one first, are in normal form. -/
def GoneThrough (done : List Component) : Prop :=
  ∃ lead names, IsOutset lead ∧ AreNames names ∧ done = (lead ++ names.map Component.normal).reverse

theorem GoneThrough.step {done : List Component} (h : GoneThrough done) {c : Component}
    (hc : c.IsName) :
    GoneThrough (normalStep done c) := by
  obtain ⟨lead, names, hlead, hnames, rfl⟩ := h
  cases c with
  | root => exact absurd hc (by decide)
  | current => exact absurd hc (by decide)
  | normal name =>
      refine ⟨lead, names ++ [name], hlead, hnames.concat hc, ?_⟩
      rw [normalStep_normal]
      simp
  | parent =>
      rcases normalStep_parent hlead names with ⟨above, last, rfl, hdone⟩ | ⟨rfl, hmore, hdone⟩
      · exact ⟨lead, above, hlead, hnames.of_append.1, hdone⟩
      · exact ⟨lead ++ [.parent], [], hmore, by simp [AreNames], by simpa using hdone⟩

theorem GoneThrough.steps {done : List Component} (h : GoneThrough done) {cs : List Component}
    (hcs : ∀ c ∈ cs, c.IsName) : GoneThrough (cs.foldl normalStep done) := by
  induction cs generalizing done with
  | nil => exact h
  | cons c cs ih =>
      obtain ⟨hc, hcs⟩ := List.forall_mem_cons.mp hcs
      exact ih (h.step hc) hcs

/-- The normal form of the components of a path. -/
theorem normalComponents_eq (p : FilePath) : ∃ lead names, IsOutset lead ∧ AreNames names ∧
    normalComponents p.components = lead ++ names.map .normal := by
  have hlead : GoneThrough ((leadOf p.text.toList).foldl normalStep []) := by
    unfold leadOf
    split
    · exact ⟨[.root], [], ⟨0, Or.inr rfl⟩, by simp [AreNames], rfl⟩
    all_goals exact ⟨[], [], isOutset_nil, by simp [AreNames], rfl⟩
  have hnamed : ∀ c ∈ namesOf p.text.toList, c.IsName := isName_of_mem_namesOf
  obtain ⟨lead, names, houtset, hnames, hdone⟩ := hlead.steps hnamed
  refine ⟨lead, names, houtset, hnames, ?_⟩
  rw [normalComponents, components, componentsOf_eq, List.foldl_append, hdone, List.reverse_reverse]

theorem components_normalize (p : FilePath) :
    p.normalize.components = normalComponents p.components :=
  components_ofComponents (spellable_normalComponents p)

theorem isNormal_normalize (p : FilePath) : p.normalize.IsNormal := by
  obtain ⟨lead, names, hlead, hnames, h⟩ := normalComponents_eq p
  exact ⟨lead, names, hlead, hnames, by rw [normalize, h, spelled]⟩

/-- Steps up are kept where there is no name to go up from. -/
theorem foldl_normalStep_parent (up : Nat) {done : List Component}
    (hdone : ∀ name, done.head? ≠ some (Component.normal name)) :
    (List.replicate up Component.parent).foldl normalStep done = List.replicate up .parent ++
      done := by
  induction up generalizing done with
  | zero => rfl
  | succ up ih =>
      have hpush : normalStep done .parent = .parent :: done := by
        cases done with
        | nil => rfl
        | cons c done =>
            cases c with
            | normal name => exact absurd rfl (hdone name)
            | _ => rfl
      rw [List.replicate_succ, List.foldl_cons, hpush, ih (by simp), ← List.replicate_succ,
        List.replicate_succ', List.append_assoc]
      rfl

theorem foldl_normalStep_normal (names : List String) (done : List Component) :
    (names.map Component.normal).foldl normalStep done =
      (names.map Component.normal).reverse ++ done := by
  induction names generalizing done with
  | nil => rfl
  | cons name names ih =>
      rw [List.map_cons, List.foldl_cons, normalStep_normal, ih]
      simp

/-- A normal form is its own. -/
theorem normalComponents_spelled (hlead : IsOutset lead) (names : List String) :
    normalComponents (lead ++ names.map .normal) = lead ++ names.map .normal := by
  rw [normalComponents, List.foldl_append, foldl_normalStep_normal, List.reverse_append,
    List.reverse_reverse]
  congr 1
  obtain ⟨up, rfl | rfl⟩ := hlead
  · rw [foldl_normalStep_parent up (by simp)]
    simp
  · have hroot : normalStep [] .root = [.root] := rfl
    rw [List.foldl_cons, hroot, foldl_normalStep_parent up (by simp)]
    simp

theorem IsNormal.normalize_eq (h : p.IsNormal) : p.normalize = p := by
  obtain ⟨lead, names, hlead, hnames, rfl⟩ := h
  rw [normalize, components_spelled hlead hnames, normalComponents_spelled hlead, spelled]

/-- Steps up take back names only. -/
theorem root_mem_foldl_normalStep_iff (cs done : List Component) :
    .root ∈ cs.foldl normalStep done ↔ .root ∈ done ∨ .root ∈ cs := by
  have hstep : ∀ done c, .root ∈ normalStep done c ↔ .root ∈ done ∨ c = .root := by
    intro done c
    unfold normalStep
    split
    · simp
    · simp
    · simp [or_comm, eq_comm]
  induction cs generalizing done with
  | nil => simp
  | cons c cs ih =>
      simp only [List.foldl_cons, ih, hstep, List.mem_cons, or_assoc, eq_comm]

theorem root_mem_normalComponents_iff {cs : List Component} :
    .root ∈ normalComponents cs ↔ .root ∈ cs := by
  rw [normalComponents, List.mem_reverse, root_mem_foldl_normalStep_iff]
  simp

/-- As long as no step up is left over, what a path goes through is put behind what was there. By
induction on the path, the last component last. -/
theorem foldl_normalStep_append {cs : List Component} (hcs : ∀ c ∈ cs, c.IsName)
    (h : .parent ∉ cs.foldl normalStep []) (done : List Component) :
    cs.foldl normalStep done = cs.foldl normalStep [] ++ done := by
  induction cs using List.reverseRecOn with
  | nil => rfl
  | append_singleton cs c ih =>
      obtain ⟨hfirst, hlast⟩ := List.forall_mem_append.mp hcs
      have hc := hlast c (List.mem_singleton_self c)
      rw [List.foldl_concat] at h
      rw [List.foldl_concat, List.foldl_concat]
      cases c with
      | root => exact absurd hc (by decide)
      | current => exact absurd hc (by decide)
      | normal name =>
          rw [normalStep_normal, List.mem_cons, not_or] at h
          rw [normalStep_normal, normalStep_normal, ih hfirst h.2, List.cons_append]
      | parent =>
          cases hdone : cs.foldl normalStep [] with
          | nil => simp [hdone, normalStep] at h
          | cons last above =>
              cases last with
              | normal name =>
                  have habove : .parent ∉ above := by simpa [hdone, normalStep] using h
                  rw [ih hfirst (by simpa [hdone] using habove), hdone]
                  rfl
              | _ => simp [hdone, normalStep] at h

/-- What comes between a path and what is joined to it. -/
def gap (p : FilePath) : String :=
  if p.text.isEmpty || p.endsWithSlash then "" else "/"

theorem join_eq (p : FilePath) {q : FilePath} (hq : ¬ q.isAbsolute = true) :
    p.join q = ⟨p.text ++ p.gap ++ q.text⟩ := by
  have hrelative : q.isAbsolute = false := by simpa using hq
  by_cases hempty : p.text = ""
  · simp [join, gap, hempty, hrelative]
  · cases hend : p.endsWithSlash <;> simp [join, gap, hempty, hrelative, hend]

theorem empty_join {p : FilePath} (hp : p.text = "") (q : FilePath) : p.join q = q := by
  simp [join, hp]

theorem join_of_isAbsolute (p : FilePath) {q : FilePath} (hq : q.isAbsolute = true) :
    p.join q = q := by
  simp [join, hq]

theorem isAbsolute_append {text : String} (h : text ≠ "") (more : String) :
    (FilePath.mk (text ++ more)).isAbsolute = (FilePath.mk text).isAbsolute := by
  obtain ⟨c, cs, hchars⟩ := List.exists_cons_of_ne_nil (l := text.toList) (by simpa using h)
  simp [isAbsolute, hchars]

theorem isAbsolute_join {q : FilePath} (hp : p.text ≠ "") (hq : q.isAbsolute = false) :
    (p.join q).isAbsolute = p.isAbsolute := by
  rw [join_eq p (by simp [hq]), String.append_assoc]
  exact isAbsolute_append hp _

theorem gap_append {text : String} (h : text ≠ "") (before : String) :
    (FilePath.mk (before ++ text)).gap = (FilePath.mk text).gap := by
  have hchars : text.toList ≠ [] := by simpa using h
  have hlast : (before ++ text).toList.getLast? = text.toList.getLast? := by
    rw [String.toList_append, List.getLast?_append_of_ne_nil _ hchars]
  simp only [gap, endsWithSlash, hlast]
  simp [h]

theorem gap_join_empty (p : FilePath) : (FilePath.mk (p.text ++ p.gap)).gap = "" := by
  by_cases hempty : p.text = ""
  · simp [gap, hempty]
  · cases hend : p.endsWithSlash with
    | true => simp_all [gap, endsWithSlash]
    | false =>
        have hgap : p.gap = "/" := by simp [gap, hempty, hend]
        rw [hgap]
        simp [gap, endsWithSlash]

/-- What does not start anew goes on from the normal form. -/
theorem normalComponents_join (p : FilePath) {q : FilePath} (hq : q.isAbsolute = false) :
    normalComponents (p.join q).components =
      ((namesOf q.text.toList).foldl normalStep
        (normalComponents p.components).reverse).reverse := by
  by_cases hempty : p.text = ""
  · have hnone : normalComponents p.components = [] := by
      rw [components, hempty]
      rfl
    have hlead : (leadOf q.text.toList).foldl normalStep [] = [] := by
      rcases leadOf_cases q with ⟨habsolute, -⟩ | ⟨-, hlead | hlead⟩
      · rw [hq] at habsolute
        cases habsolute
      all_goals
        rw [hlead]
        rfl
    rw [empty_join hempty, hnone, normalComponents, components, componentsOf_eq,
      List.foldl_append, hlead]
    rfl
  · rw [components_join_of_ne_empty hempty hq, normalComponents, List.foldl_append,
      normalComponents, List.reverse_reverse]

theorem join_assoc (p q r : FilePath) : (p.join q).join r = p.join (q.join r) := by
  by_cases hr : r.isAbsolute = true
  · simp only [join_of_isAbsolute _ hr]
  by_cases hq : q.isAbsolute = true
  · have hne : q.text ≠ "" := by
      intro hempty
      simp [isAbsolute, hempty] at hq
    have hjoined : (q.join r).isAbsolute = true := by
      rw [join_eq q hr, String.append_assoc, isAbsolute_append hne]
      exact hq
    rw [join_of_isAbsolute p hq, join_of_isAbsolute p hjoined]
  · by_cases hempty : q.text = ""
    · have hempty' : q = ⟨""⟩ := congrArg FilePath.mk hempty
      subst hempty'
      rw [empty_join rfl, join_eq p hq, join_eq p hr, join_eq _ hr]
      simp only [String.append_empty, gap_join_empty]
    · have hjoined : ¬ (q.join r).isAbsolute = true := by
        rw [join_eq q hr, String.append_assoc, isAbsolute_append hempty]
        exact hq
      have hgap : (FilePath.mk (p.text ++ p.gap ++ q.text)).gap = q.gap := gap_append hempty _
      rw [join_eq p hjoined, join_eq p hq, join_eq _ hr, join_eq q hr, hgap]
      simp only [String.append_assoc]

/-- The names of a path stand behind each other as they do behind what the path is joined to. -/
theorem spelled_append (lead : List Component) (above : List String) {names : List String}
    (hnames : names ≠ []) :
    spelled lead (above ++ names) = (spelled lead above).join (spelled [] names) := by
  induction names using List.reverseRecOn with
  | nil => exact absurd rfl hnames
  | append_singleton names name ih =>
      by_cases hfirst : names = []
      · subst hfirst
        rw [List.nil_append, spelled_concat, ← List.nil_append [name], spelled_concat]
        exact congrArg (spelled lead above).join (empty_join rfl ⟨name⟩).symm
      · have hjoin :
            ∀ lead names, spelled lead (names ++ [name]) = (spelled lead names).join ⟨name⟩ :=
          fun lead names => spelled_concat lead names name
        rw [← List.append_assoc, hjoin, hjoin, ih hfirst, join_assoc]

theorem dropTail_name {c : Component} (hc : c.IsName) {rest : List Char}
    (hrest : rest = [] ∨ rest.head? = some '/') (room : Nat) :
    dropTail (room + 1) (c.text.toList.reverse ++ rest) = c.text.toList.reverse ++ rest := by
  have hstretch : (c.text.toList.reverse ++ rest).takeWhile (· ≠ '/') = c.text.toList.reverse := by
    rw [List.takeWhile_append_of_pos hc.no_slash]
    rcases hrest with rfl | hhead
    · simp
    · obtain ⟨more, rfl⟩ := List.head?_eq_some_iff.mp hhead
      rw [List.takeWhile_cons_of_neg (by simp), List.append_nil]
  obtain ⟨a, cs, hchars⟩ := List.exists_cons_of_ne_nil (l := c.text.toList.reverse)
    (by simpa using hc.toList_ne_nil)
  have hdot : c.text.toList.reverse ≠ ['.'] := by
    intro hdot
    exact hc.text_ne_dot (by simpa using congrArg List.reverse hdot)
  rw [hchars] at hstretch hdot ⊢
  rw [List.cons_append] at hstretch ⊢
  simp only [dropTail, hstretch]
  simp [hdot]

/-- The characters in front of the names of a text. -/
def leadText : List Char → List Char
  | '/' :: _ => ['/']
  | ['.'] => ['.']
  | '.' :: '/' :: _ => ['.']
  | _ => []

theorem parent?_eq (p : FilePath) : p.parent? =
    match dropTail ((p.text.toList.drop (leadText p.text.toList).length).reverse.length + 1)
        (p.text.toList.drop (leadText p.text.toList).length).reverse with
    | [] => if leadText p.text.toList = ['.'] then some ⟨""⟩ else none
    | tail =>
      some ⟨String.ofList (leadText p.text.toList ++
        (dropTail (((tail.dropWhile (· ≠ '/')).drop 1).length + 1)
          ((tail.dropWhile (· ≠ '/')).drop 1)).reverse)⟩ := rfl

/-- What is left without the name at the end. -/
theorem parent?_of_name {c : Component} (hc : c.IsName) {lead body : List Char}
    (hlead : leadText p.text.toList = lead)
    (htext : p.text.toList = lead ++ (body ++ c.text.toList))
    (hbody : body = [] ∨ body.getLast? = some '/') :
    p.parent? = some ⟨String.ofList (lead ++
      (dropTail (body.dropLast.length + 1) body.dropLast.reverse).reverse)⟩ := by
  have hrest : body.reverse = [] ∨ body.reverse.head? = some '/' :=
    hbody.imp (by simp [·]) (by simp [·])
  have hdrop :
      (p.text.toList.drop lead.length).reverse = c.text.toList.reverse ++ body.reverse := by
    rw [htext, List.drop_left, List.reverse_append]
  have hleft : ((c.text.toList.reverse ++ body.reverse).dropWhile (· ≠ '/')).drop 1 =
      body.dropLast.reverse := by
    rw [List.dropWhile_append_of_pos hc.no_slash]
    rcases hbody with rfl | hlast
    · rfl
    · obtain ⟨before, rfl⟩ := List.getLast?_eq_some_iff.mp hlast
      simp
  obtain ⟨a, cs, hchars⟩ := List.exists_cons_of_ne_nil (l := c.text.toList.reverse ++ body.reverse)
    (by simp [hc.toList_ne_nil])
  rw [parent?_eq, hlead, hdrop, dropTail_name hc hrest]
  rw [hchars] at hleft ⊢
  simp only [hleft, List.length_reverse]

theorem not_isAbsolute_of_isName {c : Component} (hc : c.IsName) :
    ¬ (FilePath.mk c.text).isAbsolute = true := by
  intro habsolute
  exact hc.1 (List.mem_of_head? (by simpa [isAbsolute] using habsolute))

theorem isAbsolute_name {name : String} (hname : (Component.normal name).IsName) :
    (FilePath.mk name).isAbsolute = false :=
  eq_false_of_ne_true (not_isAbsolute_of_isName hname)

/-- What is in front of the name at the end. -/
theorem text_join (p : FilePath) {c : Component} (hc : c.IsName) :
    (p.join ⟨c.text⟩).text.toList = p.text.toList ++ p.gap.toList ++ c.text.toList ∧
      (p.text.toList ++ p.gap.toList = [] ∨
        (p.text.toList ++ p.gap.toList).getLast? = some '/') := by
  refine ⟨by simp [join_eq p (not_isAbsolute_of_isName hc)], ?_⟩
  by_cases hempty : p.text = ""
  · exact Or.inl (by simp [gap, hempty])
  · right
    cases hend : p.endsWithSlash with
    | true =>
        have hgap : p.gap = "" := by simp [gap, hend]
        simpa [hgap, endsWithSlash] using hend
    | false => simp [gap, hempty, hend]

theorem gap_join (p : FilePath) {c : Component} (hc : c.IsName) : (p.join ⟨c.text⟩).gap = "/" := by
  have hchars := (text_join p hc).1
  have hlast : (p.join ⟨c.text⟩).text.toList.getLast? ≠ some '/' := by
    rw [hchars, List.getLast?_append_of_ne_nil _ hc.toList_ne_nil]
    exact fun hslash => hc.1 (List.mem_of_getLast? hslash)
  have hempty : (p.join ⟨c.text⟩).text ≠ "" := by
    intro hnil
    rw [hnil] at hchars
    exact hc.toList_ne_nil (List.append_eq_nil_iff.mp hchars.symm).2
  simp [gap, endsWithSlash, hlast, hempty]

/-- A canonical path begins with a slash or with a name. -/
theorem IsCanonical.leadText (h : p.IsCanonical) :
    leadText p.text.toList = if p.text.toList.head? = some '/' then ['/'] else [] := by
  obtain ⟨cs, hcs, rfl⟩ := h
  have hcurrent : Component.current ∉ (ofComponents cs).components := by
    rw [components_ofComponents hcs]
    obtain ⟨names, hnames, rfl | rfl⟩ := hcs
    · exact fun member => absurd (hnames _ member) (by decide)
    · intro member
      rcases List.mem_cons.mp member with hroot | member
      · cases hroot
      · exact absurd (hnames _ member) (by decide)
  rw [components, componentsOf_eq, List.mem_append, not_or] at hcurrent
  generalize (ofComponents cs).text.toList = text at hcurrent ⊢
  unfold FilePath.leadText
  split
  · rfl
  · exact absurd (by simp [leadOf]) hcurrent.1
  · exact absurd (by simp [leadOf]) hcurrent.1
  · next hroot _ _ =>
      rw [if_neg]
      intro hhead
      obtain ⟨cs, rfl⟩ := List.head?_eq_some_iff.mp hhead
      exact hroot cs rfl

/-- The last step down to a canonical path, if there is one. -/
theorem IsCanonical.cases (h : p.IsCanonical) :
    p = ⟨""⟩ ∨ p = ⟨"/"⟩ ∨ ∃ q : FilePath, ∃ c : Component, c.IsName ∧ p = q.join ⟨c.text⟩ := by
  obtain ⟨cs, hcs, rfl⟩ := h
  rcases List.eq_nil_or_concat cs with rfl | ⟨above, c, rfl⟩
  · exact Or.inl rfl
  · right
    obtain ⟨names, hnames, rfl | hroot⟩ := hcs
    · exact Or.inr ⟨ofComponents above, c, hnames c (by simp), by simp [ofComponents]⟩
    · cases above with
      | nil =>
          obtain ⟨rfl, -⟩ := List.cons.inj hroot
          exact Or.inl rfl
      | cons first above =>
          obtain ⟨rfl, rfl⟩ := List.cons.inj hroot
          exact Or.inr ⟨ofComponents (.root :: above), c, hnames c (by simp),
            by simp [ofComponents]⟩

/-- No name begins with a slash. -/
theorem head?_ne_slash {c : Component} (hc : c.IsName) (more : List Char) :
    (c.text.toList ++ more).head? ≠ some '/' := by
  obtain ⟨a, cs, hchars⟩ := List.exists_cons_of_ne_nil hc.toList_ne_nil
  rw [hchars, List.cons_append, List.head?_cons]
  exact fun hslash => hc.1 (by simp [hchars, Option.some.inj hslash])

theorem parent?_of_chars {c : Component} (hc : c.IsName) (lead body : List Char)
    (hlead : leadText (p.text.toList ++ p.gap.toList ++ c.text.toList) = lead)
    (hbody : p.text.toList ++ p.gap.toList = lead ++ body)
    (hlast : body = [] ∨ body.getLast? = some '/')
    (hsame : p.text.toList = lead ++
      (dropTail (body.dropLast.length + 1) body.dropLast.reverse).reverse) :
    (p.join ⟨c.text⟩).parent? = some p := by
  have htext := (text_join p hc).1
  rw [← htext] at hlead
  rw [hbody, List.append_assoc] at htext
  rw [parent?_of_name hc hlead htext hlast, ← hsame, String.ofList_toList]

/-- What stands in front of a name, without the slash that it may begin with. -/
theorem exists_lead {front rest : List Char} (hfront : front = [] ∨ front.getLast? = some '/')
    (hrest : rest.head? ≠ some '/') :
    ∃ lead before, lead = (if (front ++ rest).head? = some '/' then ['/'] else []) ∧
      front = lead ++ before ∧ (before = [] ∨ before.getLast? = some '/') := by
  cases front with
  | nil => exact ⟨[], [], by simp [hrest], rfl, Or.inl rfl⟩
  | cons a front =>
      have hlast : (a :: front).getLast? = some '/' := hfront.resolve_left (by simp)
      by_cases hroot : a = '/'
      · refine ⟨['/'], front, by simp [hroot], by simp [hroot], ?_⟩
        cases front with
        | nil => exact Or.inl rfl
        | cons b front => exact Or.inr (by simpa using hlast)
      · exact ⟨[], a :: front, by simp [hroot], rfl, Or.inr hlast⟩

/-- What is joined by name to a canonical path lies in it. -/
theorem IsCanonical.parent?_join (h : p.IsCanonical) {c : Component} (hc : c.IsName) :
    (p.join ⟨c.text⟩).parent? = some p := by
  have hlead := (h.join hc).leadText
  rw [(text_join p hc).1] at hlead
  rcases h.cases with rfl | rfl | ⟨q, last, hname, rfl⟩
  · have hfirst := head?_ne_slash hc []
    rw [List.append_nil] at hfirst
    exact parent?_of_chars hc [] [] (hlead.trans (if_neg hfirst)) rfl (Or.inl rfl) rfl
  · exact parent?_of_chars hc ['/'] [] hlead rfl (Or.inl rfl) rfl
  · obtain ⟨hinner, hfront⟩ := text_join q hname
    have hgap : (q.join ⟨last.text⟩).gap.toList = ['/'] := by rw [gap_join q hname]; rfl
    obtain ⟨lead, before, hchars, hsplit, hbefore⟩ :=
      exists_lead hfront (head?_ne_slash hname ('/' :: c.text.toList))
    rw [hinner, hgap] at hlead
    refine parent?_of_chars hc lead (before ++ last.text.toList ++ ['/']) ?_ ?_
      (Or.inr List.getLast?_concat) ?_
    · rw [hinner, hgap, hlead, hchars]
      simp
    · rw [hinner, hgap, hsplit]
      simp
    · -- a slash or nothing stands before the last name, so the name is kept
      have hrest : before.reverse = [] ∨ before.reverse.head? = some '/' :=
        hbefore.imp (by simp [·]) (by simp [·])
      rw [List.dropLast_concat, List.reverse_append, dropTail_name hname hrest, hinner, hsplit]
      simp

theorem IsCanonical.directory_join (h : p.IsCanonical) {c : Component} (hc : c.IsName) :
    (p.join ⟨c.text⟩).directory = p := by
  rw [directory, h.parent?_join hc, Option.getD_some]

theorem IsNormal.isCanonical (h : p.IsNormal) : p.IsCanonical := by
  obtain ⟨lead, names, hlead, hnames, rfl⟩ := h
  exact ⟨_, hlead.spellable hnames, rfl⟩

theorem parent?_spelled_concat {name : String} (hlead : IsOutset lead)
    (hnames : AreNames (names ++ [name])) :
    (spelled lead (names ++ [name])).parent? = some (spelled lead names) := by
  have hname : (Component.normal name).IsName := hnames name (by simp)
  have hnormal : (spelled lead names).IsNormal := ⟨lead, names, hlead, hnames.of_append.1, rfl⟩
  have hjoin : spelled lead (names ++ [name]) =
      (spelled lead names).join ⟨(Component.normal name).text⟩ := spelled_concat lead names name
  rw [hjoin, hnormal.isCanonical.parent?_join hname]

theorem directory_spelled_concat {name : String} (hlead : IsOutset lead)
    (hnames : AreNames (names ++ [name])) :
    (spelled lead (names ++ [name])).directory = spelled lead names := by
  rw [directory, parent?_spelled_concat hlead hnames, Option.getD_some]

/-- Steps up lie in one step less. -/
theorem isNormal_directory_ups {first : List Component}
    (hfirst : first = [] ∨ first = [.root]) (up : Nat) :
    (spelled (first ++ List.replicate up .parent) []).directory.IsNormal := by
  have hempty : AreNames [] := by simp [AreNames]
  cases up with
  | zero =>
      have hstart : (spelled (first ++ List.replicate 0 .parent) []).directory = spelled [] [] := by
        rcases hfirst with rfl | rfl <;> decide
      exact ⟨[], [], isOutset_nil, hempty, hstart⟩
  | succ up =>
      have hbefore : IsOutset (first ++ List.replicate up .parent) :=
        ⟨up, hfirst.imp (by simp [·]) (by simp [·])⟩
      have hjoin : spelled (first ++ List.replicate (up + 1) .parent) [] =
          (spelled (first ++ List.replicate up .parent) []).join ⟨Component.parent.text⟩ := by
        simp [spelled, ofComponents, List.replicate_succ', List.foldl_append]
      have hnormal : (spelled (first ++ List.replicate up .parent) []).IsNormal :=
        ⟨_, [], hbefore, hempty, rfl⟩
      rw [hjoin, hnormal.isCanonical.directory_join (by decide)]
      exact hnormal

/-- What a path in normal form lies in has one, too. -/
theorem IsNormal.directory (h : p.IsNormal) : p.directory.IsNormal := by
  obtain ⟨lead, names, hlead, hnames, rfl⟩ := h
  rcases List.eq_nil_or_concat' names with rfl | ⟨above, name, rfl⟩
  · obtain ⟨up, rfl | rfl⟩ := hlead
    · rw [← List.nil_append (List.replicate up _)]
      exact isNormal_directory_ups (Or.inl rfl) up
    · rw [← List.singleton_append]
      exact isNormal_directory_ups (Or.inr rfl) up
  · rw [directory_spelled_concat hlead hnames]
    exact ⟨lead, above, hlead, hnames.of_append.1, rfl⟩

end FilePath

end MarkerIndex
