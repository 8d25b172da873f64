import MarkerIndex.Proofs.Session
import MarkerIndex.Proofs.Watching
import Mathlib.Data.Finset.Card
/-!
How far a loading has come, as it is shown while it goes on. The counters are set once, before the
first file, and from there on each file that was parsed counts. So they show at most as many files
done as there are in all just when no more files are loaded than were listed beforehand. Of listed
texts no others can be loaded; on a disk the root may be none of the listed files, and an attribute
may name a file elsewhere.
-/

namespace MarkerIndex

open FilePath

namespace Loading

theorem length_loaded {l : Loading} {c : Corpus} (h : l.corpus = .ok c) :
    l.loaded.length = c.files.length := by
  rw [(of_corpus h).2, List.length_mergeSort]

end Loading

theorem Disk.countsTo_events {d : Disk} {project : FilePath} {settings : Settings}
    {sources : SourceSet} (h : d.sourceSet project settings = .ok sources) :
    Event.CountsTo (d.load sources).loaded.length sources.candidates.length
      (d.discover project settings).events := by
  refine ⟨[.enterPhase .discovery, .leave, .enterPhase .parsing],
    (d.load sources).events ++ [.leave], ?_, rfl, ?_, ?_⟩
  · rw [discover, h]
    rfl
  · rw [List.any_append, Loading.not_sets_events]
    rfl
  · rw [List.count_append, Loading.count_events]
    rfl

namespace Loader

variable {l : Loader}

/-- A run loads files that were not loaded before, each of them once. -/
theorem fresh_of_run (limit : Nat) (visited : List FilePath) (pending : List PendingModule)
    (hpending : ∀ next ∈ pending, ∀ candidate ∈ next.candidates, candidate.1.IsNormal) :
    ((l.run limit visited pending).loaded.map (·.path)).Nodup ∧
      ∀ f ∈ (l.run limit visited pending).loaded, f.path ∉ visited ∧ f.path.IsNormal ∧
        (l.text? f.path).isSome = true := by
  fun_induction run l limit visited pending with
  | case3 limit visited next pending hfind ih =>
      exact ih fun m member => hpending m (List.mem_cons_of_mem _ member)
  | case6 visited next pending found hfind limit items hparse file declared later ih =>
      obtain ⟨htext, hfresh⟩ := fresh_of_find hfind
      have hnormal : found.path.IsNormal := hpending next List.mem_cons_self _
        (List.mem_of_find?_eq_some (find?_of_find hfind))
      obtain ⟨hdistinct, hlater⟩ := ih fun m member => by
        rcases List.mem_append.mp member with hnew | hold
        · exact (PendingModule.mem_declaredAll_iff.mp (List.mem_reverse.mp hnew)).isNormal
        · exact hpending m (List.mem_cons_of_mem _ hold)
      refine ⟨?_, List.forall_mem_cons.mpr ⟨⟨hfresh, hnormal, by simp [file, htext]⟩,
        fun f hf => ?_⟩⟩
      · refine List.nodup_cons.mpr ⟨fun member => ?_, hdistinct⟩
        obtain ⟨f, hf, hsame⟩ := List.mem_map.mp member
        exact (hlater f hf).1 (hsame ▸ List.mem_cons_self)
      · obtain ⟨hunmet, hrest⟩ := hlater f hf
        exact ⟨fun member => hunmet (List.mem_cons_of_mem _ member), hrest⟩
  | _ => simp

/-- A loading loads each file once, and beside the root only files that can be read. -/
theorem fresh_of_load (limit : Nat) (root : FilePath) (text : String) :
    ((l.load limit root text).loaded.map (·.path)).Nodup ∧
      ∀ f ∈ (l.load limit root text).loaded, f.isRoot = true ∧ f.path = root ∨
        f.path.IsNormal ∧ (l.text? f.path).isSome = true := by
  cases hparse : l.parse text with
  | error failure => simp [load, hparse]
  | ok items =>
      obtain ⟨hdistinct, hlater⟩ := l.fresh_of_run limit [root]
        ((Placed.ofRoot root items).file.declaredModules root.directory).reverse
        fun next member =>
          (PendingModule.mem_declaredAll_iff.mp (List.mem_reverse.mp member)).isNormal
      simp only [load, hparse]
      refine ⟨?_, List.forall_mem_cons.mpr ⟨Or.inl ⟨rfl, rfl⟩, fun f hf => Or.inr (hlater f hf).2⟩⟩
      refine List.nodup_cons.mpr ⟨fun member => ?_, hdistinct⟩
      obtain ⟨f, hf, hsame⟩ := List.mem_map.mp member
      exact (hlater f hf).1 (by simpa using hsame)

end Loader

namespace SourceTable

/-- Of listed texts each is loaded once at most. -/
theorem length_loaded_le {t : SourceTable} {loading : Loading} (h : t.load? = some loading) :
    loading.loaded.length ≤ t.entries.length := by
  obtain ⟨⟨root, text⟩, hroot, rfl⟩ := Option.map_eq_some_iff.mp h
  have hfound : root ∈ t.paths := by
    obtain ⟨name, -, hname⟩ := List.exists_of_findSome?_eq_some hroot
    obtain ⟨_, hlookup, hsame⟩ := Option.map_eq_some_iff.mp hname
    obtain rfl : name = root := congrArg Prod.fst hsame
    exact isSome_lookup_iff.mp (by rw [hlookup]; rfl)
  obtain ⟨hdistinct, hloaded⟩ := t.loader.fresh_of_load t.entries.length root text
  have hsubset : (t.loader.load t.entries.length root text).loaded.map (·.path) ⊆ t.paths := by
    intro path member
    obtain ⟨f, hf, rfl⟩ := List.mem_map.mp member
    rcases hloaded f hf with ⟨-, hpath⟩ | ⟨-, htext⟩
    · rwa [hpath]
    · exact isSome_lookup_iff.mp htext
  simpa [paths] using (List.subperm_of_subset hdistinct hsubset).length_le

/-- The counters are kept within the number of listed texts, also when a text cannot be parsed. -/
theorem keepsWithin_events (t : SourceTable) : Event.KeepsWithin t.events := by
  cases hload : t.load? with
  | none =>
      have hevents : t.events = [] := by rw [events, loadTraced, hload]
      intro s before after hsplit hset
      obtain rfl := (List.append_eq_nil_iff.mp (hevents ▸ hsplit).symm).1
      cases hset
  | some loading => exact (countsTo_events hload).keepsWithin_iff.mpr (length_loaded_le hload)

end SourceTable

theorem Corpus.processed_ofSources {sources : List (FilePath × String)} {c : Corpus}
    (h : ofSources sources = .ok c) (s : Session) :
    (s.replay (SourceTable.ofList sources).events).progress.processed = c.files.length := by
  cases hload : (SourceTable.ofList sources).load? with
  | none =>
      rw [ofSources, SourceTable.loadTraced, hload] at h
      cases h
  | some loading =>
      rw [ofSources, SourceTable.loadTraced, hload] at h
      rw [(SourceTable.countsTo_events hload).progress_replay]
      exact Loading.length_loaded h

/-- Of two lists without repetitions, what both have makes no difference for which is the longer. -/
theorem length_le_iff_of_nodup {α : Type} [DecidableEq α] {xs ys : List α} (hxs : xs.Nodup)
    (hys : ys.Nodup) : xs.length ≤ ys.length ↔
      (xs.filter (· ∉ ys)).length ≤ (ys.filter (· ∉ xs)).length := by
  have hfilter (xs ys : List α) : (xs.filter (· ∉ ys)).toFinset = xs.toFinset \ ys.toFinset := by
    ext x
    simp
  rw [← List.toFinset_card_of_nodup hxs, ← List.toFinset_card_of_nodup hys,
    ← List.toFinset_card_of_nodup (hxs.filter _), ← List.toFinset_card_of_nodup (hys.filter _),
    hfilter, hfilter, Finset.card_sdiff_le_card_sdiff_iff]

namespace SourceSet

/-- The files that a walk lists, as they are loaded. -/
def listed (sources : SourceSet) : List FilePath :=
  sources.candidates.map sources.directory.join

/-- The files of a loading that are none of those that were listed. -/
def unlisted (sources : SourceSet) (l : Loading) : List SourceFile :=
  l.loaded.filter (·.path ∉ sources.listed)

/-- The listed files that a loading does not come to. -/
def unreached (sources : SourceSet) (l : Loading) : List FilePath :=
  sources.listed.filter (· ∉ l.loaded.map (·.path))

/-- No more files are loaded than were listed just when as many listed ones are left as others are
loaded. -/
theorem length_loaded_le_iff {sources : SourceSet} {l : Loading} (hlisted : sources.listed.Nodup)
    (hloaded : (l.loaded.map (·.path)).Nodup) : l.loaded.length ≤ sources.candidates.length ↔
      (sources.unlisted l).length ≤ (sources.unreached l).length := by
  have hunlisted : (sources.unlisted l).map (·.path) =
      (l.loaded.map (·.path)).filter (· ∉ sources.listed) := by
    rw [unlisted, List.filter_map]
    rfl
  have hlengths := length_le_iff_of_nodup hloaded hlisted
  rwa [← hunlisted, listed, List.length_map, List.length_map, List.length_map] at hlengths

end SourceSet

namespace FilePath

theorem Spellable.of_append_right {front cs : List Component} (h : Spellable (front ++ cs)) :
    Spellable cs := by
  obtain ⟨names, hnames, hcs | hcs⟩ := h
  · exact ⟨cs, fun c member => hnames c (hcs ▸ List.mem_append_right front member), Or.inl rfl⟩
  · cases front with
    | nil => exact ⟨names, hnames, Or.inr hcs⟩
    | cons first front =>
        obtain ⟨-, hrest⟩ := List.cons.inj hcs
        exact ⟨cs, fun c member =>
          hnames c (hrest ▸ List.mem_append_right front member), Or.inl rfl⟩

/-- A path in normal form that goes on from a directory by names is what the names lead to from
there. -/
theorem IsNormal.eq_below {p : FilePath} (hp : p.IsNormal) {b : BaseDirectory}
    {below : List Component}
    (hbelow : p.below? (b.below []) = some below) {names : List String} (hnames : AreNames names)
    (hsame : ofComponents below = BaseDirectory.origin.below names) : p = b.below names := by
  have hcomponents : p.components = (b.below []).components ++ below :=
    componentsBelow?_eq_some_iff.mp hbelow
  have hspellable : Spellable below := by
    obtain ⟨cs, hcs, rfl⟩ := hp.isCanonical
    rw [components_ofComponents hcs] at hcomponents
    exact (hcomponents ▸ hcs).of_append_right
  obtain rfl : below = names.map .normal := by
    rw [← components_ofComponents hspellable, hsame]
    exact components_spelled BaseDirectory.origin.outset (BaseDirectory.areNames_below hnames)
  refine hp.isCanonical.eq_of_components (BaseDirectory.isNormal_below hnames).isCanonical ?_
  rw [hcomponents, BaseDirectory.below, BaseDirectory.below, List.append_nil,
    components_spelled b.outset b.areNames,
    components_spelled b.outset (BaseDirectory.areNames_below hnames), List.map_append,
    List.append_assoc]

end FilePath

/-- Different files are told by different paths from where a walk starts. -/
theorem FileTree.nodup_reachedFiles (t : FileTree) (base : Place) :
    (t.reachedFiles base).Nodup := by
  have hentries : t.entries.Pairwise fun entry other =>
      entry ∈ t.entries ∧ other ∈ t.entries ∧ entry.1 ≠ other.1 :=
    List.Pairwise.and_mem.mp (List.pairwise_map.mp t.once)
  rw [reachedFiles_eq]
  refine List.Pairwise.filterMap _ ?_ hentries
  rintro entry other ⟨hentry, hother, hne⟩ p hp q hq rfl
  obtain ⟨names, -, hnames, hpath, hplace, -⟩ := exists_names_of_reached? hentry hp
  obtain ⟨names', -, hnames', hpath', hplace', -⟩ := exists_names_of_reached? hother hq
  have hsame : names = names' := BaseDirectory.below_inj hnames hnames' (hpath.symm.trans hpath')
  exact hne (by rw [hplace, hplace', hsame])

namespace Disk

variable {d : Disk} {project : FilePath} {settings : Settings} {sources : SourceSet}

/-- A walk lists no file twice. -/
theorem nodup_listed (hsources : d.sourceSet project settings = .ok sources) :
    sources.listed.Nodup := by
  obtain ⟨-, -, -, hdirectory, hfiles⟩ := of_sourceSet hsources
  obtain ⟨b, hb⟩ := exists_base (hdirectory ▸ (isNormal_root hsources).directory)
  have hcandidates : sources.candidates.Nodup := by
    have hwalk := hfiles
    unfold sourceFiles at hwalk
    split at hwalk
    · cases hwalk
    · next base _ =>
        split at hwalk
        · rw [← Except.ok.inj hwalk, List.Perm.nodup_iff (List.mergeSort_perm _ _)]
          exact (d.tree.nodup_reachedFiles base).filter _
        · cases hwalk
  refine hcandidates.map_on fun p hp q hq hsame => ?_
  obtain ⟨names, hne, hnames, rfl⟩ := exists_names_of_mem_sourceFiles hfiles hp
  obtain ⟨names', hne', hnames', rfl⟩ := exists_names_of_mem_sourceFiles hfiles hq
  rw [hb, ← BaseDirectory.below_eq_join hne, ← BaseDirectory.below_eq_join hne'] at hsame
  rw [BaseDirectory.below_inj hnames hnames' hsame]

theorem result_discover (h : d.sourceSet project settings = .ok sources) :
    (d.discover project settings).result = (d.load sources).corpus := by
  rw [discover, h]

/-- Each file is loaded once, and beside the root only as the file of a module. -/
theorem fresh_of_load (d : Disk) (sources : SourceSet) :
    ((d.load sources).loaded.map (·.path)).Nodup ∧
      ∀ f ∈ (d.load sources).loaded, f.isRoot = true ∨
        f.path.IsNormal ∧ ∃ text, d.moduleText sources f.path = .ok (some text) := by
  cases hroot : d.read sources.root with
  | error error => simp [load, hroot]
  | ok text =>
      obtain ⟨hdistinct, hloaded⟩ := (d.loader sources).fresh_of_load d.loadLimit sources.root text
      rw [load, hroot]
      refine ⟨hdistinct, fun f hf => ?_⟩
      rcases hloaded f hf with ⟨hisRoot, -⟩ | ⟨hnormal, hread⟩
      · exact Or.inl hisRoot
      · rw [Loader.text?] at hread
        split at hread
        · next found hfound =>
            obtain ⟨text, rfl⟩ := Option.isSome_iff_exists.mp hread
            exact Or.inr ⟨hnormal, text, hfound⟩
        · cases hread

/-- What is loaded although it was not listed is the root, or lies elsewhere than below its
directory. -/
theorem unlisted_elsewhere
    (hsources : d.sourceSet project settings = .ok sources) :
    ∀ f ∈ sources.unlisted (d.load sources),
      f.isRoot = true ∨ f.path.below? sources.directory = none := by
  obtain ⟨-, -, -, hdirectory, hfiles⟩ := of_sourceSet hsources
  obtain ⟨b, hb⟩ := exists_base (hdirectory ▸ (isNormal_root hsources).directory)
  intro f hf
  obtain ⟨hloaded, hunlisted⟩ := List.mem_filter.mp hf
  rcases (d.fresh_of_load sources).2 f hloaded with hisRoot | ⟨hnormal, text, htext⟩
  · exact Or.inl hisRoot
  · cases hbelow : f.path.below? sources.directory with
    | none => exact Or.inr rfl
    | some below =>
        have hmember : ofComponents below ∈ sources.candidates := by
          by_contra hhidden
          simp [moduleText, hbelow, hhidden] at htext
        obtain ⟨names, hne, hnames, hsame⟩ := exists_names_of_mem_sourceFiles hfiles hmember
        have hpath : f.path = b.below names := hnormal.eq_below (hb ▸ hbelow) hnames hsame
        refine absurd (List.mem_map.mpr ⟨_, hmember, ?_⟩) (of_decide_eq_true hunlisted)
        rw [hpath, hsame, hb, ← BaseDirectory.below_eq_join hne]

theorem processed_discover {c : Corpus} (h : (d.discover project settings).result = .ok c)
    (s : Session) :
    (s.replay (d.discover project settings).events).progress.processed = c.files.length := by
  cases hsources : d.sourceSet project settings with
  | error error =>
      rw [discover, hsources] at h
      cases h
  | ok sources =>
      rw [(countsTo_events hsources).progress_replay]
      exact Loading.length_loaded ((result_discover hsources).symm.trans h)

theorem keepsWithin_discover_iff
    (hsources : d.sourceSet project settings = .ok sources) :
    Event.KeepsWithin (d.discover project settings).events ↔
      (sources.unlisted (d.load sources)).length ≤ (sources.unreached (d.load sources)).length := by
  rw [(countsTo_events hsources).keepsWithin_iff]
  exact SourceSet.length_loaded_le_iff (nodup_listed hsources) (d.fresh_of_load sources).1

end Disk

/-- Of listed texts never more are loaded than there are. On a disk that is so just when at least as
many of the listed files are left as others are loaded, and such others are the root or lie
elsewhere than below its directory. A loading that gets through ends with as many files done as the
crate has, in both cases. -/
theorem progress_keepsWithin (listed : List (FilePath × String)) (d : Disk) (project : FilePath)
    (settings : Settings) :
    (Event.KeepsWithin (SourceTable.ofList listed).events ∧
      ∀ c, Corpus.ofSources listed = .ok c → ∀ s : Session,
        (s.replay (SourceTable.ofList listed).events).progress.processed = c.files.length) ∧
    (∀ c, (d.discover project settings).result = .ok c → ∀ s : Session,
      (s.replay (d.discover project settings).events).progress.processed = c.files.length) ∧
    (∀ sources, d.sourceSet project settings = .ok sources →
      (Event.KeepsWithin (d.discover project settings).events ↔
        (sources.unlisted (d.load sources)).length ≤ (sources.unreached (d.load sources)).length) ∧
      ∀ f ∈ sources.unlisted (d.load sources),
        f.isRoot = true ∨ f.path.below? sources.directory = none) :=
  ⟨⟨(SourceTable.ofList listed).keepsWithin_events, fun _ h => Corpus.processed_ofSources h⟩,
    fun _ h => Disk.processed_discover h, fun _ hsources =>
      ⟨Disk.keepsWithin_discover_iff hsources, Disk.unlisted_elsewhere hsources⟩⟩

namespace Disk

/-- Of a library with three files beside each other one is passed over, and no other is loaded
instead. -/
theorem progress_keepsWithin_beside :
    beside.sourceSet ⟨"."⟩ besideSettings = .ok besideSources ∧
    Event.KeepsWithin (beside.discover ⟨"."⟩ besideSettings).events ∧
    (∃ c, (beside.discover ⟨"."⟩ besideSettings).result = .ok c ∧ ∀ s : Session,
      (s.replay (beside.discover ⟨"."⟩ besideSettings).events).progress.processed =
        c.files.length) ∧
    ∃ c, Corpus.ofSources [(⟨"lib.rs"⟩, "")] = .ok c ∧ ∀ s : Session,
      (s.replay (SourceTable.ofList [(⟨"lib.rs"⟩, "")]).events).progress.processed =
        c.files.length := by
  have hfound := discover_eq_ok_iff.mpr ⟨_, _, _, sourceSet_beside,
    Pass.ok_of_toOption (by decide +kernel), loads_beside, rfl⟩
  have hitems : Grammar.parseFile "" = .ok [] := Item.parse_of_sameAll (by decide +kernel)
  have hlibrary := Corpus.ofSources_library hitems (by decide)
  obtain ⟨⟨-, hlisted⟩, hdone, hkeeps⟩ :=
    progress_keepsWithin [(⟨"lib.rs"⟩, "")] beside ⟨"."⟩ besideSettings
  have hunlisted : besideSources.unlisted (beside.load besideSources) = [] := by
    have hcorpus := (result_discover sourceSet_beside).symm.trans hfound
    refine List.filter_eq_nil_iff.mpr fun f hf => ?_
    have hfile := (Loading.mem_files_of_corpus hcorpus).mpr hf
    simp only [List.mem_mergeSort, List.map_cons, List.map_nil, List.reverse_cons, List.reverse_nil,
      List.nil_append, List.cons_append, List.mem_cons, List.not_mem_nil, or_false] at hfile
    rcases hfile with rfl | rfl <;> decide +kernel
  refine ⟨sourceSet_beside, (hkeeps _ sourceSet_beside).1.mpr ?_, ⟨_, hfound, hdone _ hfound⟩,
    ⟨_, hlibrary, hlisted _ hlibrary⟩⟩
  rw [hunlisted]
  exact Nat.zero_le _

/-- Where an attribute names a file beside the directory of the sources, two files of one are done.
-/
theorem progress_outruns_outlying :
    (∃ c, (outlying.discover ⟨"."⟩ .standard).result = .ok c ∧ c.files.length = 2) ∧
    (∀ s : Session, (s.replay (outlying.discover ⟨"."⟩ .standard).events).progress = ⟨2, 1⟩) ∧
    ¬ Event.KeepsWithin (outlying.discover ⟨"."⟩ .standard).events := by
  have hcounts := countsTo_events sourceSet_outlying
  have hloaded : (outlying.load outlyingSources).loaded.length = 2 := by
    rw [Loading.length_loaded ((result_discover sourceSet_outlying).symm.trans discover_outlying)]
    rfl
  rw [hloaded] at hcounts
  refine ⟨⟨_, discover_outlying, rfl⟩, hcounts.progress_replay, ?_⟩
  rw [hcounts.keepsWithin_iff]
  decide

end Disk

end MarkerIndex
