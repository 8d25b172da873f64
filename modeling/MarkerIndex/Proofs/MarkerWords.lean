import MarkerIndex.Proofs.Directive
import MarkerIndex.Proofs.GeneratedText
import MarkerIndex.Proofs.Lookup
import MarkerIndex.Proofs.ModuleTree
import MarkerIndex.Proofs.Scan
import MarkerIndex.Proofs.Words
/-!
The words that the path of a marker is made of. Looking up adds no words of its own: each segment of
what is found stood in the path that was looked up, in the module where it was looked up or in the
path of an import, or is the word for the crate. So a property that the words of a crate have is
kept by every lookup, whatever way it takes.
-/

namespace MarkerIndex

theorem Grammar.isWord_of_isSegment {w : String} (h : IsSegment w) : Text.IsWord w := by
  rcases h with h | h
  · simp only [isName, Bool.and_eq_true, decide_eq_true_eq] at h
    exact h.2
  · have hwords : ∀ w ∈ segmentWords, Text.IsWord w := by decide
    exact hwords w h

/-- The path has segments, and every one of them satisfies `P`. -/
structure ItemPath.Spells (P : String → Prop) (p : ItemPath) : Prop where
  nonempty : p.segments ≠ []
  words : ∀ word ∈ p.segments, P word

theorem ItemPath.Spells.extend {P : String → Prop} {p : ItemPath} (hp : p.Spells P)
    {names : List String} (hnames : ∀ word ∈ names, P word) : (p.extend names).Spells P where
  nonempty := List.append_ne_nil_of_left_ne_nil hp.nonempty names
  words := List.forall_mem_append.mpr ⟨hp.words, hnames⟩

theorem ItemPath.spells_crateRoot {P : String → Prop} (h : P ItemPath.crateWord) :
    ItemPath.crateRoot.Spells P where
  nonempty := by simp [ItemPath.crateRoot]
  words := by simpa [ItemPath.crateRoot] using h

/-- The last segment of such a path satisfies `P`. -/
theorem ItemPath.Spells.simpleName {P : String → Prop} {p : ItemPath} (hp : p.Spells P) :
    P p.simpleName := by
  rw [ItemPath.simpleName, List.getLast?_eq_getLast_of_ne_nil hp.nonempty]
  exact hp.words _ (List.getLast_mem hp.nonempty)

/-- Every word of the path satisfies `P`. -/
def ImportTarget.Spells (P : String → Prop) (target : ImportTarget) : Prop :=
  ∀ word ∈ target.segments, P word

/-- What an import leads to is spelled in words that satisfy `P`, and so is the name it binds, where
that is no underscore. -/
def Fact.Spells (P : String → Prop) : Fact → Prop
  | binding name target => (P name ∨ name = "_") ∧ target.Spells P
  | glob target => target.Spells P
  | _ => True

/-- All imports of the crate are spelled in words that satisfy `P`. -/
structure SymbolTable.Spells (P : String → Prop) (t : SymbolTable) : Prop where
  crate : P ItemPath.crateWord
  facts : ∀ m fact, (m, fact) ∈ t.facts → fact.Spells P

namespace Level

open SymbolTable

variable {P : String → Prop} {t : SymbolTable} {lower : Level} {m : ItemPath} {names : List String}

/-- Both ways of looking up keep to words that satisfy `P`. -/
structure Keeps (P : String → Prop) (l : Level) : Prop where
  resolve : ∀ q : Query, q.module.Spells P → q.target.Spells P → (l.resolve q).path.Spells P
  descend : ∀ (m : ItemPath) (names : List String), m.Spells P → (∀ word ∈ names, P word) →
    (l.descend m names).path.Spells P

theorem keeps_last : Keeps P last where
  resolve q hm htarget := by
    simp only [last]
    split
    · exact hm
    · next hne => split <;> exact ⟨hne, htarget⟩
  descend _ _ hm hnames := hm.extend hnames

namespace Keeps

variable (keeps : lower.Keeps P) (spells : t.Spells P)

include keeps in
theorem append {found : Resolution} (hfound : found.path.Spells P)
    (hnames : ∀ word ∈ names, P word) :
    (lower.append found names).path.Spells P := by
  unfold Level.append
  split
  · exact hfound
  · split
    · exact keeps.descend _ _ hfound hnames
    · exact hfound.extend hnames

include keeps spells

theorem followImport {name : String} {target : ImportTarget} (hm : m.Spells P)
    (h : t.import? m name = some target) : (lower.followImport m name target).path.Spells P := by
  have hfound := keeps.resolve ⟨m, target, some name, true⟩ hm
    (spells.facts m _ (mem_facts_of_import? h)).2
  simp only [Level.followImport]
  split <;> exact hfound

theorem globBase {target : ImportTarget} (hm : m.Spells P) (h : target ∈ t.globs m) :
    (lower.globBase m target).path.Spells P :=
  keeps.resolve _ hm (spells.facts m _ (mem_globs.mp h))

theorem globSource? {name : String} {base : ItemPath} (hm : m.Spells P)
    (h : lower.globSource? t m name = some base) : base.Spells P := by
  obtain ⟨target, member, hbase, -⟩ := globSource?_eq_some h
  have hspells := keeps.globBase spells hm member
  rwa [hbase] at hspells

theorem externalGlob? {p : ItemPath} (hm : m.Spells P) (hnames : ∀ word ∈ names, P word)
    (h : lower.externalGlob? t m names = some p) : p.Spells P := by
  obtain ⟨target, member, -, rfl⟩ := externalGlob?_eq_some h
  exact (keeps.globBase spells hm member).extend hnames

/-- A walk comes to a path of words of its own names and of what the table holds. -/
theorem descendFrom (hm : m.Spells P) (hnames : ∀ word ∈ names, P word) :
    (lower.descendFrom t m names).path.Spells P := by
  induction m, names using walk_induct t with
  | nil m => simpa using hm
  | outside m name rest hmodule =>
      rw [descendFrom_outside hmodule]
      exact hm.extend hnames
  | declared m name rest hmodule hdeclared ih =>
      obtain ⟨hname, hrest⟩ := List.forall_mem_cons.mp hnames
      have hjoin : (m.join name).Spells P := hm.extend (by simpa using hname)
      rw [descendFrom_declared hmodule hdeclared]
      exact ih hjoin hrest
  | imported m name rest target hdeclared himport =>
      rw [descendFrom_imported hdeclared himport]
      exact keeps.append (keeps.followImport spells hm himport) (List.forall_mem_cons.mp hnames).2
  | unbound m name rest hmodule hdeclared himport =>
      rw [descendFrom_unbound hmodule hdeclared himport]
      split
      · next source hsource =>
          exact keeps.descend _ _ (keeps.globSource? spells hm hsource) hnames
      · exact hm.extend hnames

omit keeps in
theorem climb (hm : m.Spells P) : (Level.climb m names).1.Spells P := by
  induction names generalizing m with
  | nil => exact hm
  | cons name rest ih =>
      rw [Level.climb]
      split
      · apply ih
        unfold ItemPath.parent?
        split
        · exact ItemPath.spells_crateRoot spells.crate
        · next hlong =>
            refine ⟨fun hnil => hlong ?_, fun word member =>
              hm.words word (List.dropLast_subset _ member)⟩
            have hlength : m.segments.dropLast.length = 0 := congrArg List.length hnil
            rw [List.length_dropLast] at hlength
            omega
      · exact hm

theorem resolveName {q : Query} {first : String} {rest : List String} (hm : q.module.Spells P)
    (hnames : ∀ word ∈ first :: rest, P word) :
    (lower.resolveName t q first rest).path.Spells P := by
  have hrest := (List.forall_mem_cons.mp hnames).2
  rw [Level.resolveName]
  split
  · next target hbinding =>
      obtain ⟨-, himport⟩ := Option.ite_none_left_eq_some.mp hbinding
      exact keeps.append (keeps.followImport spells hm himport) hrest
  · split
    · exact keeps.descendFrom spells hm hnames
    · dsimp only
      split
      · next source hsource =>
          have hglob := (Option.ite_none_right_eq_some.mp hsource).2
          exact keeps.descendFrom spells (keeps.globSource? spells hm hglob) hnames
      · split
        · next p hp =>
            exact keeps.externalGlob? spells hm hnames (Option.ite_none_right_eq_some.mp hp).2
        · exact ⟨List.cons_ne_nil _ _, hnames⟩

theorem above : (lower.above t).Keeps P where
  descend m names hm hnames := keeps.descendFrom spells hm hnames
  resolve := by
    rintro ⟨m, ⟨segments, leadingColon⟩, skip, throughGlobs⟩ hm htarget
    simp only [Level.above, resolveFrom]
    cases segments with
    | nil => exact hm
    | cons first rest =>
        have hrest := (List.forall_mem_cons.mp htarget).2
        dsimp only
        split
        · exact ⟨List.cons_ne_nil _ _, htarget⟩
        · split
          · exact keeps.descendFrom spells (ItemPath.spells_crateRoot spells.crate) hrest
          · split
            · exact keeps.descendFrom spells hm hrest
            · split
              · have hbehind := climb_subset m (first :: rest)
                exact keeps.descendFrom spells (climb spells hm) fun word member =>
                  htarget word (hbehind member)
              · exact keeps.resolveName spells hm htarget

end Keeps

theorem keeps_ofDepth (spells : t.Spells P) (depth : Nat) : (ofDepth t depth).Keeps P := by
  induction depth with
  | zero => exact keeps_last
  | succ depth ih => exact ih.above spells

end Level

/-- Whatever a path means is spelled in words that satisfy `P`, if the path and the crate are. -/
theorem SymbolTable.Spells.resolve {P : String → Prop} {t : SymbolTable} (spells : t.Spells P)
    {m : ItemPath} (hm : m.Spells P) {segments : List String}
    (hsegments : ∀ word ∈ segments, P word)
    (leadingColon : Bool) : (t.resolve m segments leadingColon).path.Spells P :=
  (Level.keeps_ofDepth spells Level.depthLimit).resolve ⟨m, ⟨segments, leadingColon⟩, none, true⟩ hm
    hsegments

namespace Fact

variable {P : String → Prop} {leadingColon : Bool}

theorem name_of_bindingWords {name : String} (h : ∀ word ∈ bindingWords name, P word) :
    P name ∨ name = "_" := by
  by_cases hname : name = "_"
  · exact Or.inr hname
  · exact Or.inl (h name (by simp [bindingWords, hname]))

theorem spells_ofName (name : String) {fact : Fact} (h : fact ∈ ofName name) : fact.Spells P := by
  simp only [ofName] at h
  split at h
  · cases h
  · obtain rfl := List.mem_singleton.mp h
    trivial

mutual

theorem spells_ofUseTree {before : List String} (hbefore : ∀ word ∈ before, P word) :
    (tree : UseTree) → (∀ word ∈ tree.words, P word) →
      ∀ fact ∈ ofUseTree leadingColon before tree, fact.Spells P
  | .path word tree, hwords, fact, member => by
      obtain ⟨hword, htree⟩ := List.forall_mem_cons.mp (by simpa only [UseTree.words] using hwords)
      have hlonger : ∀ w ∈ before ++ [word], P w :=
        List.forall_mem_append.mpr ⟨hbefore, by simpa using hword⟩
      exact spells_ofUseTree hlonger tree htree fact (by simpa only [ofUseTree] using member)
  | .name word, hwords, fact, member => by
      have hword : P word := hwords word (by simp [UseTree.words])
      simp only [ofUseTree] at member
      split at member
      · split at member
        · next last hlast =>
            obtain rfl := List.mem_singleton.mp member
            exact ⟨Or.inl (hbefore last (List.mem_of_getLast? hlast)), hbefore⟩
        · cases member
      · obtain rfl := List.mem_singleton.mp member
        exact ⟨Or.inl hword, List.forall_mem_append.mpr ⟨hbefore, by simpa using hword⟩⟩
  | .rename word as_, hwords, fact, member => by
      obtain ⟨hword, has⟩ := List.forall_mem_cons.mp (by simpa only [UseTree.words] using hwords)
      simp only [ofUseTree] at member
      split at member
      · cases member
      · obtain rfl := List.mem_singleton.mp member
        refine ⟨name_of_bindingWords has, ?_⟩
        simp only [ImportTarget.Spells]
        split
        · exact hbefore
        · exact List.forall_mem_append.mpr ⟨hbefore, by simpa using hword⟩
  | .glob, _, fact, member => by
      obtain rfl : fact = glob ⟨before, leadingColon⟩ := by simpa [ofUseTree] using member
      exact hbefore
  | .group trees, hwords, fact, member =>
      spells_ofUseTrees hbefore trees (by simpa only [UseTree.words] using hwords) fact
        (by simpa only [ofUseTree] using member)

theorem spells_ofUseTrees {before : List String} (hbefore : ∀ word ∈ before, P word) :
    (trees : List UseTree) → (∀ word ∈ UseTree.wordsAll trees, P word) →
      ∀ fact ∈ ofUseTrees leadingColon before trees, fact.Spells P
  | [], _, fact, member => by simp [ofUseTrees] at member
  | tree :: trees, hwords, fact, member => by
      obtain ⟨htree, htrees⟩ :=
        List.forall_mem_append.mp (by simpa only [UseTree.wordsAll] using hwords)
      rcases List.mem_append.mp (by simpa only [ofUseTrees] using member) with member | member
      · exact spells_ofUseTree hbefore tree htree fact member
      · exact spells_ofUseTrees hbefore trees htrees fact member

end

theorem spells_own (hcrate : P ItemPath.crateWord) {i : Item} (hwords : ∀ word ∈ i.words, P word)
    {fact : Fact} (h : fact ∈ own i) : fact.Spells P := by
  cases i with
  | use leadingColon tree => exact spells_ofUseTree (by simp) tree hwords fact h
  | externalCrate word rename =>
      obtain ⟨hword, hrename⟩ := List.forall_mem_cons.mp (by simpa only [Item.words] using hwords)
      obtain rfl := List.mem_singleton.mp h
      refine ⟨?_, ?_⟩
      · cases rename with
        | none => exact Or.inl hword
        | some as_ => exact name_of_bindingWords hrename
      · simp only [ImportTarget.Spells]
        split
        · simpa using hcrate
        · simpa using hword
  | submodule name attributes content =>
      obtain rfl := List.mem_singleton.mp h
      trivial
  | function f => exact spells_ofName f.name h
  | contract name functions => exact spells_ofName name h
  | declaration name => exact spells_ofName name h
  | _ => cases h

theorem Stated.spells (hcrate : P ItemPath.crateWord) {m : ItemPath} {items : List Item}
    {fact : ItemPath × Fact} (h : Stated m items fact)
    (hwords : ∀ word ∈ Item.wordsAll items, P word) :
    fact.2.Spells P := by
  induction h with
  | own hi hfact =>
      rw [Item.wordsAll_eq_flatMap] at hwords
      exact spells_own hcrate (fun word hword =>
        hwords word (List.mem_flatMap.mpr ⟨_, hi, hword⟩)) hfact
  | opened => trivial
  | inside hi _ ih =>
      rw [Item.wordsAll_eq_flatMap] at hwords
      refine ih fun word hword => hwords word (List.mem_flatMap.mpr ⟨_, hi, ?_⟩)
      simp [Item.words, hword]

end Fact

namespace Loader

/-- A run loads files that its grammar has taken, none of them as a root. -/
theorem parsed_of_run (l : Loader) (limit : Nat) (visited : List FilePath)
    (pending : List PendingModule) : ∀ f ∈ (l.run limit visited pending).loaded,
      f.isRoot = false ∧ ∃ text, l.parse text = .ok f.items := by
  fun_induction run l limit visited pending with
  | case3 limit visited next pending hfind ih => exact ih
  | case6 visited next pending found hfind limit items hparse file declared later ih =>
      intro f member
      rcases List.mem_cons.mp member with rfl | member
      · exact ⟨rfl, found.text, hparse⟩
      · exact ih f member
  | _ => simp

theorem parsed_of_load (l : Loader) (limit : Nat) (root : FilePath) (text : String) :
    ∀ f ∈ (l.load limit root text).loaded, (f.isRoot = true → f.module = .crateRoot) ∧
      ∃ text, l.parse text = .ok f.items := by
  intro f member
  cases hparse : l.parse text with
  | error failure => simp [load, hparse] at member
  | ok items =>
      simp only [load, hparse] at member
      rcases List.mem_cons.mp member with rfl | hlater
      · exact ⟨fun _ => rfl, text, hparse⟩
      · obtain ⟨hroot, hread⟩ := l.parsed_of_run limit _ _ f hlater
        exact ⟨fun h => by simp [h] at hroot, hread⟩

end Loader

namespace Corpus

/-- The files of a crate are texts that the grammar takes, and its root file stands for its root. -/
structure Parsed (c : Corpus) : Prop where
  items : ∀ f ∈ c.files, ∃ text, Grammar.parseFile text = .ok f.items
  root : ∀ f ∈ c.files, f.isRoot = true → f.module = .crateRoot

theorem parsed_of_loading {l : Loader} (hparse : l.parse = Grammar.parseFile) {limit : Nat}
    {root : FilePath} {text : String} {c : Corpus}
    (h : (l.load limit root text).corpus = .ok c) : c.Parsed where
  items f hf := by
    obtain ⟨text, htext⟩ :=
      (l.parsed_of_load limit root text f ((Loading.mem_files_of_corpus h).mp hf)).2
    exact ⟨text, hparse ▸ htext⟩
  root f hf := (l.parsed_of_load limit root text f ((Loading.mem_files_of_corpus h).mp hf)).1

theorem parsed_of_ofSources {sources : List (FilePath × String)} {c : Corpus}
    (h : ofSources sources = .ok c) : c.Parsed := by
  obtain ⟨l, limit, root, text, hparse, hload⟩ := exists_load_of_ofSources h
  exact parsed_of_loading hparse hload

theorem parsed_of_discover {d : Disk} {project : FilePath} {settings : Settings} {c : Corpus}
    (h : (d.discover project settings).result = .ok c) : c.Parsed := by
  obtain ⟨l, limit, root, text, hparse, hload⟩ := exists_load_of_discover h
  exact parsed_of_loading hparse hload

/-- The imports of a crate are spelled in words of paths. -/
theorem Parsed.spells {c : Corpus} (parsed : c.Parsed) (external : List ItemPath) :
    (c.table external).Spells Grammar.IsSegment where
  crate := Or.inr (by decide)
  facts m fact member := by
    obtain ⟨f, hf, hfact⟩ := List.mem_flatMap.mp member
    obtain ⟨text, htext⟩ := parsed.items f hf
    rcases List.mem_cons.mp hfact with heq | hfact
    · cases heq
      trivial
    · exact (Fact.mem_ofItems_iff.mp hfact).spells (Or.inr (by decide))
        (Grammar.allSpelled_of_parseFile htext)

end Corpus

namespace Directive

/-- The marker of a directive is spelled in words of paths. -/
theorem spells_of_marker {t : SymbolTable} (spells : t.Spells Grammar.IsSegment) {root : SourceFile}
    (hroot : root.module.Spells Grammar.IsSegment) {line : Nat} {body : List TokenTree}
    {p : ItemPath}
    (h : marker t root line body = .ok p) : p.Spells Grammar.IsSegment := by
  cases hshape : Grammar.parsePathTokens body with
  | error failure => simp [marker, hshape] at h
  | ok shape =>
      obtain ⟨rfl, -⟩ := of_marker hshape h
      exact spells.resolve hroot (Grammar.allSegments_of_parsePathTokens hshape) _

/-- The markers that a crate asks lists for are spelled in words of paths. -/
theorem spells_of_markers {c : Corpus} (parsed : c.Parsed) {external : List ItemPath}
    {settings : Settings} {found : List ItemPath}
    (h : markers c (c.table external) settings = .ok found) :
    ∀ p ∈ found, p.Spells Grammar.IsSegment := by
  cases hroot : c.root? with
  | none =>
      obtain rfl : found = [] := by simpa [markers, hroot] using h.symm
      simp
  | some root =>
      obtain ⟨paths, hall, rfl⟩ := exists_of_markers h hroot
      intro p hp
      obtain ⟨call, -, hmarker⟩ := Traversal.exists_of_mapM_ok hall p (mem_firstSeen.mp hp)
      have hmodule : root.module = .crateRoot := parsed.root root
        (List.mem_of_find?_eq_some hroot) (by simpa using List.find?_some hroot)
      refine spells_of_marker (parsed.spells external) ?_ hmarker
      rw [hmodule]
      exact ItemPath.spells_crateRoot (Or.inr (by decide))

end Directive

namespace Declaration

/-- The attributes of a function are among the words of an item that holds it. -/
theorem Holds.allSegments {place inner : Place} {item : Item} {address : List Nat} {f : Function}
    (h : Holds place item address inner f)
    (hitem : item.Spelled) : Grammar.AllSegments f.words := by
  induction h with
  | function => exact hitem
  | implementation hf | contract hf =>
      exact List.forall_mem_flatMap.mp hitem _ (List.mem_of_getElem? hf)
  | submodule hinside _ ih =>
      have hcontent := Item.allSpelled_iff.mp (List.forall_mem_cons.mp hitem).2
      exact ih (hcontent _ (List.mem_of_getElem? hinside))

theorem StandsAt.allSegments {c : Corpus} (parsed : c.Parsed) {address : List Nat} {place : Place}
    {f : Function} (h : StandsAt c address place f) : Grammar.AllSegments f.words := by
  cases h with
  | inFile hfile hitem hholds =>
      obtain ⟨text, htext⟩ := parsed.items _ (List.mem_of_getElem? hfile)
      have hitems := Item.allSpelled_iff.mp (Grammar.allSpelled_of_parseFile htext)
      exact hholds.allSegments (hitems _ (List.mem_of_getElem? hitem))

end Declaration

end MarkerIndex
