import MarkerIndex.Proofs.Lookup
/-!
Where the meaning of a path leaves the crate. Looking up is told as single steps, each of which ends
a search or hands it on, at its own level or at the one below. From these it is read off that a
meaning is either a place of the crate or has left it at an exit: behind a double colon, at a name
that nothing in scope goes by, or at the last level, where imports are followed no more.
-/

namespace MarkerIndex

/-- What is looked up at a level: a path inside a module, or names below one. -/
inductive Search
  | find (q : Query)
  | walk (m : ItemPath) (names : List String)

namespace Search

def module : Search → ItemPath
  | find q => q.module
  | walk m _ => m

/-- How many names there are to go by, and one more where the first may be no name. -/
def size : Search → Nat
  | find q => q.target.segments.length + 1
  | walk _ names => names.length

/-- Searches that stay at a level go on by fewer names. -/
theorem induct {motive : Search → Prop}
    (step : ∀ search, (∀ m names, names.length < search.size → motive (.walk m names)) →
      motive search)
    (search : Search) : motive search :=
  (measure size).wf.induction search fun search ih => step search fun m names hlt =>
    ih (.walk m names) hlt

end Search

/-- What the first step of a search comes to. -/
inductive Next
  /-- A place of the crate. -/
  | found (p : ItemPath)
  /-- A path that is written behind a double colon. -/
  | rooted (p : ItemPath)
  /-- A registered item of another crate, by a glob import. -/
  | registered (p : ItemPath)
  /-- A name that nothing in scope goes by. -/
  | unknown (name : String) (rest : List String)
  /-- Names below a module, at the same level. -/
  | goes (m : ItemPath) (names : List String)
  /-- The import that binds a name in a module, at the level below, with names behind it. -/
  | follows (m : ItemPath) (name : String) (target : ImportTarget) (rest : List String)
  /-- Names below a module, at the level below. -/
  | lowers (m : ItemPath) (names : List String)

namespace Level

/-- What a level finds for a search. -/
def run (l : Level) : Search → Resolution
  | .find q => l.resolve q
  | .walk m names => l.descend m names

section

variable (t : SymbolTable) (lower : Level)

/-- The first step of looking up a path that begins with a name. -/
def nextOfName (q : Query) (first : String) (rest : List String) : Next :=
  match if q.skip = some first then none else t.import? q.module first with
  | some target => .follows q.module first target rest
  | none =>
    if t.declares q.module first then .goes q.module (first :: rest)
    else match if q.throughGlobs then lower.globSource? t q.module first else none with
      | some source => .goes source (first :: rest)
      | none =>
        match if q.throughGlobs then lower.externalGlob? t q.module (first :: rest) else none with
        | some p => .registered p
        | none => .unknown first rest

/-- The first step of a search at the level above. -/
def next : Search → Next
  | .walk m [] => .found m
  | .walk m (name :: rest) =>
    if !t.isModule m then .found (m.extend (name :: rest))
    else if t.declares m name then .goes (m.join name) rest
    else match t.import? m name with
      | some target => .follows m name target rest
      | none =>
        match lower.globSource? t m name with
        | some source => .lowers source (name :: rest)
        | none => .found (m.extend (name :: rest))
  | .find q =>
    match q.target.segments with
    | [] => .found q.module
    | first :: rest =>
      if q.target.leadingColon then .rooted ⟨first :: rest⟩
      else if first = "crate" then .goes .crateRoot rest
      else if first = "self" then .goes q.module rest
      else if first = "super" then
        let (base, rest) := climb q.module (first :: rest)
        .goes base rest
      else lower.nextOfName t q first rest

/-- What a search comes to, from its first step on. -/
def finish : Next → Resolution
  | .found p => ⟨p, .local⟩
  | .rooted p => ⟨p, .external⟩
  | .registered p => ⟨p, .external⟩
  | .unknown name rest => ⟨⟨name :: rest⟩, if rest = [] then .unscoped else .external⟩
  | .goes m names => (lower.above t).run (.walk m names)
  | .follows m name target rest => lower.append (lower.followImport m name target) rest
  | .lowers m names => lower.run (.walk m names)

end

variable {t : SymbolTable} {lower : Level} {search : Search}

theorem resolveName_eq_finish (q : Query) (first : String) (rest : List String) :
    lower.resolveName t q first rest = lower.finish t (lower.nextOfName t q first rest) := by
  rw [resolveName, nextOfName]
  cases if q.skip = some first then none else t.import? q.module first with
  | some target => rfl
  | none =>
      cases t.declares q.module first with
      | true => rfl
      | false =>
          cases if q.throughGlobs then lower.globSource? t q.module first else none with
          | some source => rfl
          | none =>
              cases if q.throughGlobs then lower.externalGlob? t q.module (first :: rest)
                else none <;> rfl

/-- A level does what the first step of a search says. -/
theorem run_above (search : Search) :
    (lower.above t).run search = lower.finish t (lower.next t search) := by
  cases search with
  | walk m names =>
      change lower.descendFrom t m names = _
      cases names with
      | nil => rw [descendFrom_nil]; rfl
      | cons name rest =>
          cases hmodule : t.isModule m with
          | false =>
              rw [descendFrom_outside hmodule, next, hmodule]
              rfl
          | true =>
              cases hdeclared : t.declares m name with
              | true =>
                  rw [descendFrom_declared hmodule hdeclared, next, hmodule, hdeclared]
                  rfl
              | false =>
                  cases himport : t.import? m name with
                  | some target =>
                      rw [descendFrom_imported hdeclared himport, next, hmodule, hdeclared, himport]
                      rfl
                  | none =>
                      rw [descendFrom_unbound hmodule hdeclared himport, next, hmodule,
                        hdeclared, himport]
                      cases lower.globSource? t m name <;> rfl
  | find q =>
      change lower.resolveFrom t q = _
      rw [resolveFrom, next]
      cases q.target.segments with
      | nil => rfl
      | cons first rest =>
          simp only [apply_ite (lower.finish t), ← resolveName_eq_finish]
          rfl

/-- What there is to know of a step. Where it stays at its level there is less left to go by, and it
leads to modules of the crate or to where a glob import leads. -/
inductive Fits (t : SymbolTable) (lower : Level) : Search → Next → Prop
  | found (search : Search) (names : List String) :
      Fits t lower search (.found (search.module.extend names))
  | rooted {q : Query} : q.target.segments ≠ [] → q.target.leadingColon = true →
      Fits t lower (.find q) (.rooted ⟨q.target.segments⟩)
  | registered {q : Query} {p : ItemPath} :
      lower.externalGlob? t q.module q.target.segments = some p →
      Fits t lower (.find q) (.registered p)
  | unknown {q : Query} {name : String} {rest : List String} : name ∉ ItemPath.pathWords →
      Fits t lower (.find q) (.unknown name rest)
  | goes {search : Search} {m : ItemPath} {names : List String} : names.length < search.size →
      (search.module.isLocal = true → m.isLocal = true ∨
        ∃ name, lower.globSource? t search.module name = some m) →
        Fits t lower search (.goes m names)
  | follows (search : Search) (name : String) (target : ImportTarget) (rest : List String) :
      Fits t lower search (.follows search.module name target rest)
  | lowers {search : Search} {m : ItemPath} {name : String} {names : List String} :
      lower.globSource? t search.module name = some m → Fits t lower search (.lowers m names)

end Level

namespace ItemPath

/-- A path of another crate begins with a name. -/
def isForeign (p : ItemPath) : Bool :=
  p.segments.head?.any (· ∉ pathWords)

variable {p : ItemPath}

theorem isForeign_extend (h : p.isForeign = true) (names : List String) :
    (p.extend names).isForeign = true := by
  obtain ⟨_ | ⟨first, rest⟩⟩ := p
  · cases h
  · exact h

theorem isLocal_extend (h : p.isLocal = true) (names : List String) :
    (p.extend names).isLocal = true := by
  obtain ⟨_ | ⟨first, rest⟩⟩ := p
  · cases h
  · exact h

theorem isLocal_parent (h : p.isLocal = true) : (p.parent?.getD crateRoot).isLocal = true := by
  rw [parent?]
  split
  · rfl
  · next hlength =>
      obtain ⟨_ | ⟨first, _ | ⟨second, rest⟩⟩⟩ := p
      · simp at hlength
      · simp at hlength
      · exact h

end ItemPath

namespace Level

variable {t : SymbolTable} {lower : Level} {search : Search}

theorem isLocal_climb {m : ItemPath} (h : m.isLocal = true) (names : List String) :
    (climb m names).1.isLocal = true := by
  induction names generalizing m with
  | nil => exact h
  | cons name rest ih =>
      rw [climb]
      split
      · exact ih (ItemPath.isLocal_parent h)
      · exact h

theorem length_climb_le (m : ItemPath) (names : List String) :
    (climb m names).2.length ≤ names.length := by
  induction names generalizing m with
  | nil => exact Nat.le_refl _
  | cons name rest ih =>
      rw [climb]
      split
      · exact Nat.le_trans (ih _) (Nat.le_succ _)
      · exact Nat.le_refl _

theorem fits_nextOfName {q : Query} {first : String} {rest : List String}
    (hsegments : q.target.segments = first :: rest) (hfirst : first ∉ ItemPath.pathWords) :
    Fits t lower (.find q) (lower.nextOfName t q first rest) := by
  have hsize : (first :: rest).length < (Search.find q).size := by simp [Search.size, hsegments]
  rw [nextOfName]
  cases if q.skip = some first then none else t.import? q.module first with
  | some target => exact .follows (.find q) _ _ _
  | none =>
      cases t.declares q.module first with
      | true => exact .goes hsize Or.inl
      | false =>
          cases hsource : if q.throughGlobs then lower.globSource? t q.module first else none with
          | some source =>
              have hglob := (Option.ite_none_right_eq_some.mp hsource).2
              exact .goes hsize fun _ => Or.inr ⟨first, hglob⟩
          | none =>
              cases hitem :
                if q.throughGlobs then lower.externalGlob? t q.module (first :: rest) else none with
              | some p =>
                  have hglob := (Option.ite_none_right_eq_some.mp hitem).2
                  exact .registered (by rwa [hsegments])
              | none => exact .unknown hfirst

theorem fits_next (search : Search) : Fits t lower search (lower.next t search) := by
  cases search with
  | walk m names =>
      cases names with
      | nil => simpa [next, Search.module] using Fits.found (.walk m []) []
      | cons name rest =>
          have hstays : Fits t lower (.walk m (name :: rest)) (.found (m.extend (name :: rest))) :=
            .found (.walk m (name :: rest)) _
          rw [next]
          cases t.isModule m with
          | false => exact hstays
          | true =>
              cases t.declares m name with
              | true =>
                  exact .goes (Nat.lt_succ_self _) fun h =>
                    Or.inl (ItemPath.isLocal_extend h [name])
              | false =>
                  cases t.import? m name with
                  | some target => exact .follows (.walk m (name :: rest)) _ _ _
                  | none =>
                      cases hsource : lower.globSource? t m name with
                      | some source => exact .lowers hsource
                      | none => exact hstays
  | find q =>
      rw [next]
      cases hsegments : q.target.segments with
      | nil => simpa [Search.module] using Fits.found (.find q) []
      | cons first rest =>
          have hsize : rest.length < (Search.find q).size := by
            simp only [Search.size, hsegments, List.length_cons]
            omega
          dsimp only
          split
          · next hcolon => exact hsegments ▸ .rooted (by simp [hsegments]) hcolon
          · split
            · exact .goes hsize fun _ => Or.inl rfl
            · split
              · exact .goes hsize Or.inl
              · split
                · refine .goes ?_ fun h => Or.inl (isLocal_climb h _)
                  have hclimb := length_climb_le q.module (first :: rest)
                  simp only [Search.size, hsegments]
                  omega
                · next hcrate hself hsuper =>
                    exact fits_nextOfName hsegments (by simp [ItemPath.pathWords, *])

theorem fits_of_next {step : Next} (h : lower.next t search = step) : Fits t lower search step :=
  h ▸ fits_next search

/-- What a level finds inside the crate, from a module of the crate, lies below its root. -/
def Inside (l : Level) : Prop :=
  ∀ search : Search, search.module.isLocal = true → (l.run search).origin = .local →
    (l.run search).path.isLocal = true

namespace Inside

theorem last : Inside Level.last := by
  intro search hmodule horigin
  cases search with
  | walk m names => exact ItemPath.isLocal_extend hmodule names
  | find q =>
      simp only [run, Level.last] at horigin ⊢
      split at horigin
      · next hnil =>
          rw [if_pos hnil]
          exact hmodule
      · split at horigin <;> cases horigin

variable (inside : lower.Inside)

include inside in
theorem globSource {m base : ItemPath} {name : String} (hm : m.isLocal = true)
    (h : lower.globSource? t m name = some base) : base.isLocal = true := by
  obtain ⟨target, -, hbase, -⟩ := globSource?_eq_some h
  have hrun := inside (.find ⟨m, target, none, false⟩) hm
  rw [run, ← globBase, hbase] at hrun
  exact hrun rfl

include inside in
theorem append {m : ItemPath} {name : String} {target : ImportTarget} (hm : m.isLocal = true)
    (rest : List String)
    (h : (lower.append (lower.followImport m name target) rest).origin = .local) :
    (lower.append (lower.followImport m name target) rest).path.isLocal = true := by
  have hfound : (lower.followImport m name target).origin = .local →
      (lower.followImport m name target).path.isLocal = true := by
    intro horigin
    have hfollow := followImport_of_local horigin
    rw [hfollow] at horigin ⊢
    exact inside (.find ⟨m, target, some name, true⟩) hm horigin
  by_cases hrest : rest = []
  · subst hrest
    simp only [append_nil] at h ⊢
    exact hfound h
  · obtain ⟨horigin, hdescend⟩ := append_of_ne_nil hrest h
    rw [hdescend] at h ⊢
    exact inside (.walk _ rest) (hfound horigin) h

include inside in
theorem above : (lower.above t).Inside := by
  intro search
  induction search using Search.induct with
  | step search ih =>
      intro hmodule
      have hfits : Fits t lower search (lower.next t search) := fits_next search
      rw [run_above]
      generalize lower.next t search = next at hfits ⊢
      cases hfits with
      | found _ names => exact fun _ => ItemPath.isLocal_extend hmodule names
      | rooted _ _ => exact nofun
      | registered _ => exact nofun
      | @unknown q name rest _ => cases rest <;> exact nofun
      | @goes _ m names hsize hm =>
          have hlocal : m.isLocal = true :=
            (hm hmodule).elim id fun ⟨name, hsource⟩ => inside.globSource hmodule hsource
          exact ih m names hsize hlocal
      | follows _ name target rest => exact inside.append hmodule rest
      | lowers hsource => exact inside (.walk _ _) (inside.globSource hmodule hsource)

end Inside

theorem inside_ofDepth (t : SymbolTable) (depth : Nat) : (ofDepth t depth).Inside := by
  induction depth with
  | zero => exact .last
  | succ depth ih => exact ih.above

end Level

/-- Where the meaning of a path leaves the crate. -/
inductive WayOut
  /-- Behind a double colon at the beginning of a path. -/
  | rooted
  /-- At a name that nothing in scope goes by. -/
  | unknown
  /-- At the last level, where a path is left as it stands. -/
  | cutOff
  deriving DecidableEq

open Level (ofDepth)

/-- With so many levels below it, a search leaves the crate at an exit, for a path outside. -/
inductive SymbolTable.Leaves (t : SymbolTable) : Nat → Search → WayOut → ItemPath → Prop
  | rooted {depth : Nat} {q : Query} : q.target.segments ≠ [] → q.target.leadingColon = true →
      Leaves t depth (.find q) .rooted ⟨q.target.segments⟩
  | cutOff {q : Query} : q.target.segments ≠ [] → q.target.leadingColon = false →
      Leaves t 0 (.find q) .cutOff ⟨q.target.segments⟩
  | unknown {depth : Nat} {search : Search} {name : String} {rest : List String} :
      (ofDepth t depth).next t search = .unknown name rest →
      Leaves t (depth + 1) search .unknown ⟨name :: rest⟩
  /-- A registered item of another crate is found where a glob import leaves. -/
  | registered {depth : Nat} {q : Query} {target : ImportTarget} {exit : WayOut} {base : ItemPath} :
      (ofDepth t depth).next t (.find q) = .registered (base.extend q.target.segments) →
      Leaves t depth (.find ⟨q.module, target, none, false⟩) exit base →
      Leaves t (depth + 1) (.find q) exit (base.extend q.target.segments)
  | goes {depth : Nat} {search : Search} {m p : ItemPath} {names : List String} {exit : WayOut} :
      (ofDepth t depth).next t search = .goes m names →
      Leaves t (depth + 1) (.walk m names) exit p → Leaves t (depth + 1) search exit p
  /-- The names behind an import that leaves come behind the path that it leaves for. -/
  | follows {depth : Nat} {search : Search} {m p : ItemPath} {name : String} {target : ImportTarget}
      {rest : List String} {exit : WayOut} :
      (ofDepth t depth).next t search = .follows m name target rest →
      Leaves t depth (.find ⟨m, target, some name, true⟩) exit p →
      Leaves t (depth + 1) search exit (p.extend rest)
  /-- The names behind an import lead on from a place of the crate. -/
  | onward {depth : Nat} {search : Search} {m found p : ItemPath} {name : String}
      {target : ImportTarget}
      {rest : List String} {exit : WayOut} :
      (ofDepth t depth).next t search = .follows m name target rest → rest ≠ [] →
      (ofDepth t depth).run (.find ⟨m, target, some name, true⟩) = ⟨found, .local⟩ →
      Leaves t depth (.walk found rest) exit p → Leaves t (depth + 1) search exit p
  | lowers {depth : Nat} {search : Search} {m p : ItemPath} {names : List String} {exit : WayOut} :
      (ofDepth t depth).next t search = .lowers m names →
      Leaves t depth (.walk m names) exit p → Leaves t (depth + 1) search exit p

namespace Level

variable {t : SymbolTable} {lower : Level} {m : ItemPath} {name : String} {target : ImportTarget}

/-- An import that leads out of the crate is one of an item outside of it. -/
theorem followImport_outside
    (h : (lower.run (.find ⟨m, target, some name, true⟩)).origin ≠ .local) :
    lower.followImport m name target =
      ⟨(lower.run (.find ⟨m, target, some name, true⟩)).path, .external⟩ := by
  rw [run] at h ⊢
  rw [followImport]
  generalize lower.resolve ⟨m, target, some name, true⟩ = found at h ⊢
  obtain ⟨p, _ | _ | _⟩ := found
  · exact absurd rfl h
  · rfl
  · rfl

theorem followImport_inside {p : ItemPath}
    (h : lower.run (.find ⟨m, target, some name, true⟩) = ⟨p, .local⟩) :
    lower.followImport m name target = ⟨p, .local⟩ := by
  rw [run] at h
  rw [followImport, h]

theorem append_external (p : ItemPath) (rest : List String) :
    lower.append ⟨p, .external⟩ rest = ⟨p.extend rest, .external⟩ := by
  by_cases hrest : rest = [] <;> simp [append, hrest]

end Level

/-- The search is to go by names below a module. -/
def Search.isWalk : Search → Bool
  | find _ => false
  | walk _ _ => true

namespace SymbolTable

variable {t : SymbolTable} {depth : Nat} {search : Search} {exit : WayOut} {p : ItemPath}

/-- At every level a path behind a double colon is left as it stands. -/
theorem run_rooted {q : Query} (hne : q.target.segments ≠ [])
    (hcolon : q.target.leadingColon = true)
    (depth : Nat) : (ofDepth t depth).run (.find q) = ⟨⟨q.target.segments⟩, .external⟩ := by
  cases depth with
  | zero => simp [Level.run, ofDepth, Level.last, hne, hcolon]
  | succ depth =>
      obtain ⟨first, rest, hsegments⟩ := List.exists_cons_of_ne_nil hne
      rw [ofDepth, Level.run_above, Level.next]
      simp [hsegments, hcolon, Level.finish]

/-- What is found where a search has left the crate: an item of another crate, unless it is a lone
name or there is no level below. -/
structure LeftAt (depth : Nat) (search : Search) (exit : WayOut) (p : ItemPath)
    (found : Resolution) :
    Prop where
  path : found.path = p
  outside : found.origin ≠ .local
  lone : found.origin = .unscoped → search.isWalk = false ∧ (depth = 0 ∨ exit = .unknown)

theorem LeftAt.of_walk {depth' : Nat} {m : ItemPath} {names : List String} {found : Resolution}
    (h : LeftAt depth (.walk m names) exit p found) : LeftAt depth' search exit p found where
  path := h.path
  outside := h.outside
  lone hlone := by simpa [Search.isWalk] using h.lone hlone

theorem Leaves.run (h : t.Leaves depth search exit p) :
    LeftAt depth search exit p ((ofDepth t depth).run search) := by
  induction h with
  | @rooted depth q hne hcolon =>
      rw [run_rooted hne hcolon]
      exact ⟨rfl, nofun, nofun⟩
  | @cutOff q hne hcolon =>
      have hrun : (ofDepth t 0).run (.find q) = ⟨⟨q.target.segments⟩, .unscoped⟩ := by
        simp [Level.run, ofDepth, Level.last, hne, hcolon]
      rw [hrun]
      exact ⟨rfl, nofun, fun _ => ⟨rfl, Or.inl rfl⟩⟩
  | @unknown depth search name rest hnext =>
      rw [ofDepth, Level.run_above, hnext]
      cases Level.fits_of_next hnext
      cases rest with
      | nil => exact ⟨rfl, nofun, fun _ => ⟨rfl, Or.inr rfl⟩⟩
      | cons next rest => exact ⟨rfl, nofun, nofun⟩
  | @registered depth q target exit base hnext _ _ =>
      rw [ofDepth, Level.run_above, hnext]
      exact ⟨rfl, nofun, nofun⟩
  | @goes depth search m p names exit hnext _ ih =>
      rw [ofDepth, Level.run_above, hnext]
      exact ih.of_walk
  | @follows depth search m p name target rest exit hnext _ ih =>
      rw [ofDepth, Level.run_above, hnext, Level.finish, Level.followImport_outside ih.outside,
        Level.append_external]
      exact ⟨congrArg (·.extend rest) ih.path, nofun, nofun⟩
  | @onward depth search m found p name target rest exit hnext hrest hfound _ ih =>
      rw [ofDepth, Level.run_above, hnext, Level.finish, Level.followImport_inside hfound,
        Level.append_local hrest]
      exact ih.of_walk
  | @lowers depth search m p names exit hnext _ ih =>
      rw [ofDepth, Level.run_above, hnext]
      exact ih.of_walk

/-- What leaves at a name is a path of another crate. -/
theorem Leaves.isForeign (h : t.Leaves depth search .unknown p) : p.isForeign = true := by
  generalize hexit : WayOut.unknown = exit at h
  induction h with
  | rooted _ _ => cases hexit
  | cutOff _ _ => cases hexit
  | @unknown depth search name rest hnext =>
      cases Level.fits_of_next hnext with
      | unknown hname => simpa [ItemPath.isForeign] using hname
  | registered _ _ ih => exact ItemPath.isForeign_extend (ih hexit) _
  | goes _ _ ih => exact ih hexit
  | follows _ _ ih => exact ItemPath.isForeign_extend (ih hexit) _
  | onward _ _ _ _ ih => exact ih hexit
  | lowers _ _ ih => exact ih hexit

/-- At the last level only a path of names leads out of the crate. -/
theorem local_or_leaves_last (t : SymbolTable) (search : Search) :
    (∃ p, (ofDepth t 0).run search = ⟨p, .local⟩) ∨ ∃ exit p, t.Leaves 0 search exit p := by
  cases search with
  | walk m names => exact Or.inl ⟨_, rfl⟩
  | find q =>
      by_cases hne : q.target.segments = []
      · exact Or.inl ⟨q.module, by simp [Level.run, ofDepth, Level.last, hne]⟩
      · cases hcolon : q.target.leadingColon with
        | true => exact Or.inr ⟨_, _, .rooted hne hcolon⟩
        | false => exact Or.inr ⟨_, _, .cutOff hne hcolon⟩

/-- An import leads out of the crate itself, or what it leads to does with the names behind it. -/
theorem local_or_leaves_import
    (below : ∀ search, (∃ p, (ofDepth t depth).run search = ⟨p, .local⟩) ∨
      ∃ exit p, t.Leaves depth search exit p)
    {m : ItemPath} {name : String} {target : ImportTarget} {rest : List String}
    (hnext : (ofDepth t depth).next t search = .follows m name target rest) :
    (∃ p, (ofDepth t depth).finish t (.follows m name target rest) = ⟨p, .local⟩) ∨
      ∃ exit p, t.Leaves (depth + 1) search exit p := by
  obtain ⟨found, hfound⟩ | ⟨exit, p, hleaves⟩ := below (.find ⟨m, target, some name, true⟩)
  · rw [Level.finish, Level.followImport_inside hfound]
    by_cases hrest : rest = []
    · exact Or.inl ⟨found, by rw [hrest, Level.append_nil]⟩
    · rw [Level.append_local hrest]
      exact (below (.walk found rest)).imp_right
        fun ⟨exit, p, hleaves⟩ => ⟨exit, p, .onward hnext hrest hfound hleaves⟩
  · exact Or.inr ⟨exit, _, .follows hnext hleaves⟩

/-- A search comes to a place of the crate, or it leaves the crate. The induction is on the level,
and at one level on how much there is left to go by. -/
theorem local_or_leaves (t : SymbolTable) (depth : Nat) (search : Search) :
    (∃ p, (ofDepth t depth).run search = ⟨p, .local⟩) ∨ ∃ exit p, t.Leaves depth search exit p := by
  induction depth generalizing search with
  | zero => exact local_or_leaves_last t search
  | succ depth ih =>
      -- `ih` serves for imports, which go down a level, and `ihSize` for what goes on at this one
      induction search using Search.induct with
      | step search ihSize =>
          have hfits : Level.Fits t (ofDepth t depth) search ((ofDepth t depth).next t search) :=
            Level.fits_next search
          have hrun : (ofDepth t (depth + 1)).run search = _ := Level.run_above search
          generalize hnext : (ofDepth t depth).next t search = next at hfits hrun
          rw [hrun]
          cases hfits with
          | found _ names => exact Or.inl ⟨_, rfl⟩
          | rooted hne hcolon => exact Or.inr ⟨_, _, .rooted hne hcolon⟩
          | @registered q p hglob =>
              obtain ⟨target, -, hbase, rfl⟩ := Level.externalGlob?_eq_some hglob
              obtain ⟨p, hlocal⟩ | ⟨exit, base, hleaves⟩ :=
                ih (.find ⟨q.module, target, none, false⟩)
              · exact absurd (congrArg Resolution.origin hlocal) hbase
              · have hpath : ((ofDepth t depth).globBase q.module target).path = base :=
                  hleaves.run.path
                rw [hpath] at hnext
                exact Or.inr ⟨exit, _, .registered hnext hleaves⟩
          | unknown _ => exact Or.inr ⟨_, _, .unknown hnext⟩
          | @goes _ m names hsize _ =>
              exact (ihSize m names hsize).imp_right
                fun ⟨exit, p, hleaves⟩ => ⟨exit, p, .goes hnext hleaves⟩
          | follows _ name target rest => exact local_or_leaves_import ih hnext
          | @lowers _ m name names _ =>
              exact (ih (.walk m names)).imp_right
                fun ⟨exit, p, hleaves⟩ => ⟨exit, p, .lowers hnext hleaves⟩

/-- Searches that lead to imports only, and each of them to another one of them. -/
structure Endless (t : SymbolTable) (S : Search → Prop) : Prop where
  path : ∀ q, S (.find q) → q.target.segments ≠ [] ∧ q.target.leadingColon = false
  step : ∀ search, S search → ∀ lower : Level,
    (∃ m names, lower.next t search = .goes m names ∧ S (.walk m names)) ∨
      ∃ m name target rest, lower.next t search = .follows m name target rest ∧
        S (.find ⟨m, target, some name, true⟩)

/-- What leads to imports without end is cut off. -/
theorem Endless.leaves {S : Search → Prop} (endless : t.Endless S) (hsearch : S search)
    (hdepth : depth ≠ 0 ∨ search.isWalk = false) : ∃ p, t.Leaves depth search .cutOff p := by
  induction depth generalizing search with
  | zero =>
      cases search with
      | find q =>
          obtain ⟨hne, hcolon⟩ := endless.path q hsearch
          exact ⟨_, .cutOff hne hcolon⟩
      | walk m names => simp [Search.isWalk] at hdepth
  | succ depth ih =>
      clear hdepth
      induction search using Search.induct with
      | step search ihSize =>
          rcases endless.step search hsearch (ofDepth t depth) with
            ⟨m, names, hnext, hwalk⟩ | ⟨m, name, target, rest, hnext, hfind⟩
          · cases Level.fits_of_next hnext with
            | goes hsize _ =>
                obtain ⟨p, hleaves⟩ := ihSize m names hsize hwalk
                exact ⟨p, .goes hnext hleaves⟩
          · obtain ⟨p, hleaves⟩ := ih hfind (Or.inr rfl)
            exact ⟨_, .follows hnext hleaves⟩

/-- The meaning of a path inside a module leaves the crate. -/
def Departs (t : SymbolTable) (m : ItemPath) (path : WrittenPath) (exit : WayOut)
    (p : ItemPath) : Prop :=
  t.Leaves Level.depthLimit (.find ⟨m, ⟨path.segments, path.leadingColon⟩, none, true⟩) exit p

variable {m : ItemPath} {path : WrittenPath}

/-- What departs is an item of another crate, but for a lone name. -/
theorem Departs.resolvePath (h : t.Departs m path exit p) :
    (t.resolvePath m path).path = p ∧ (t.resolvePath m path).origin ≠ .local ∧
      (exit ≠ .unknown → (t.resolvePath m path).origin = .external) := by
  obtain ⟨hpath, horigin, hlone⟩ := Leaves.run h
  refine ⟨hpath, horigin, fun hexit => ?_⟩
  have hscoped : (t.resolvePath m path).origin ≠ .unscoped :=
    fun hunscoped => (hlone hunscoped).2.elim (by decide) hexit
  rcases hfound : (t.resolvePath m path).origin with _ | _ | _
  · exact absurd hfound horigin
  · rfl
  · exact absurd hfound hscoped

/-- From a module of the crate, a path means a place below the root of the crate, or it departs. -/
theorem local_or_departs (t : SymbolTable) (hm : m.isLocal = true) (path : WrittenPath) :
    (∃ p, t.resolvePath m path = ⟨p, .local⟩ ∧ p.isLocal = true) ∨
    ∃ exit p, t.Departs m path exit p := by
  let search : Search := .find ⟨m, ⟨path.segments, path.leadingColon⟩, none, true⟩
  have hinside : ((ofDepth t Level.depthLimit).run search).origin = .local →
      ((ofDepth t Level.depthLimit).run search).path.isLocal = true :=
        Level.inside_ofDepth t _ search hm
  refine (local_or_leaves t Level.depthLimit search).imp_left ?_
  rintro ⟨p, hp⟩
  rw [hp] at hinside
  exact ⟨p, hp, hinside rfl⟩

end SymbolTable

end MarkerIndex
