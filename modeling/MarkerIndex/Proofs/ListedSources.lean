import MarkerIndex.Proofs.Regeneration
/-!
What a crate depends on in the list of its sources. The order of the list does not count, and
neither do sources that no declaration of a loaded file may mean, whatever their texts: both lists
lead through the same rounds of loading, since they give the same answer to whatever a round asks
for. Of two sources for one path the earlier might as well not be there.
-/

namespace MarkerIndex

namespace Loader

variable {l l' : Loader}

/-- A round asks for the candidates of the next declaration and for nothing else. -/
theorem Step.of_reads {s after : State} (h : l.Step s after) (hparse : l'.parse = l.parse)
    (hread : ∀ next ∈ s.pending, ∀ candidate ∈ next.candidates,
      l'.read candidate.1 = l.read candidate.1) : l'.Step s after := by
  have hfind :
      ∀ next ∈ s.pending, l'.find s.visited next.candidates = l.find s.visited next.candidates :=
    fun next member => find_congr (fun _ _ => Iff.rfl) fun candidate hcandidate _ =>
      hread next member candidate hcandidate
  cases h with
  | skip hskip => exact .skip ((hfind _ List.mem_cons_self).trans hskip)
  | load hload hitems =>
      exact .load ((hfind _ List.mem_cons_self).trans hload) (hparse ▸ hitems)

/-- Where two loaders read the same of what the loaded files declare, they go through the same
rounds. -/
theorem Step.all_of_reads {s finish : State} {origin : Placed}
    (hsteps : Relation.ReflTransGen l.Step s finish) (inv : l.Invariant origin s)
    (hparse : l'.parse = l.parse)
    (hread : ∀ p ∈ finish.placed, ∀ next, p.Declares next → ∀ candidate ∈ next.candidates,
      l'.read candidate.1 = l.read candidate.1) : Relation.ReflTransGen l'.Step s finish := by
  induction hsteps using Relation.ReflTransGen.head_induction_on with
  | refl => exact .refl
  | head hstep hlater ih =>
      refine .head (hstep.of_reads hparse fun next member => ?_) (ih (inv.step hstep))
      obtain ⟨p, hp, hdeclares⟩ := inv.declared next member
      exact hread p (Addition.placed_subset (.head hstep hlater) hp) next hdeclares

theorem Loads.of_reads {root : FilePath} {placed : List Placed} (h : l.Loads root placed)
    (hparse : l'.parse = l.parse) (hroot : l'.read root = l.read root)
    (hread : ∀ p ∈ placed, ∀ next, p.Declares next → ∀ candidate ∈ next.candidates,
      l'.read candidate.1 = l.read candidate.1) : l'.Loads root placed := by
  cases h with
  | @ends text items finish htext hitems hsteps hend =>
      have htext' : l'.text? root = some text := by
        rw [text?, hroot]
        exact htext
      exact .ends htext' (hparse ▸ hitems)
        (Step.all_of_reads hsteps (.start htext hitems) hparse hread) hend

end Loader

namespace SourceTable

variable {sources sources' added : List (FilePath × String)}

/-- In a list with each path once a text is found wherever it stands, and beside any others. -/
theorem textOf?_of_perm (hdistinct : (sources.map (·.1.normalize)).Nodup)
    (hperm : sources'.Perm (sources ++ added)) {path : FilePath}
    (hnew : ∀ source ∈ added, source.1.normalize ≠ path) :
    textOf? sources' path = textOf? sources path := by
  let here (source : FilePath × String) : Bool := source.1.normalize = path
  have hnone : added.filter here = [] :=
    List.filter_eq_nil_iff.mpr fun source member => by simpa [here] using hnew source member
  have hkept : (sources'.filter here).Perm (sources.filter here) := by
    simpa [List.filter_append, hnone] using hperm.filter here
  have hshort : (sources.filter here).length ≤ 1 := by
    have hcount := List.nodup_iff_count_le_one.mp hdistinct path
    rw [List.count, List.countP_map, List.countP_eq_length_filter] at hcount
    exact hcount
  have hsame : sources'.filter here = sources.filter here := by
    match hfound : sources.filter here, hshort with
    | [], _ => exact List.perm_nil.mp (hfound ▸ hkept)
    | [source], _ => exact List.perm_singleton.mp (hfound ▸ hkept)
  rw [textOf?, textOf?, ← List.head?_filter, ← List.head?_filter, List.filter_reverse,
    List.filter_reverse, hsame]

/-- The root of a crate is `lib.rs` if there is a text for it. -/
theorem rootAmong_eq (sources : List (FilePath × String)) :
    rootAmong sources = if (textOf? sources ⟨"lib.rs"⟩).isSome then ⟨"lib.rs"⟩
    else ⟨"main.rs"⟩ := by
  have hpresent : (⟨"lib.rs"⟩ : FilePath) ∈ sources.map (·.1.normalize) ↔
      (textOf? sources ⟨"lib.rs"⟩).isSome = true := by
    rw [← mem_paths_ofList, ← isSome_lookup_iff, lookup_ofList]
  simp only [rootAmong, hpresent]

/-- A path that the list has no source for, and that no round of the loading to `placed` asks for.
-/
structure Unasked (sources : List (FilePath × String)) (placed : List Placed) (path : FilePath) :
    Prop where
  new : path ∉ sources.map (·.1.normalize)
  notRoot : path ≠ ⟨"lib.rs"⟩
  undeclared : ∀ p ∈ placed, ∀ next, p.Declares next → path ∉ next.candidates.map (·.1)

/-- Sources in another order, beside others that are not asked for, lead to the same files. -/
theorem Loads.of_perm {placed : List Placed} (hdistinct : (sources.map (·.1.normalize)).Nodup)
    (hloads : Loads sources placed) (hperm : sources'.Perm (sources ++ added))
    (hadded : ∀ source ∈ added, Unasked sources placed source.1.normalize) :
    Loads sources' placed := by
  have hread : ∀ {path}, (∀ source ∈ added, source.1.normalize ≠ path) →
      (ofList sources').loader.read path = (ofList sources).loader.read path := by
    intro path hnew
    simp only [loader, lookup_ofList, textOf?_of_perm hdistinct hperm hnew]
  have hlib : textOf? sources' ⟨"lib.rs"⟩ = textOf? sources ⟨"lib.rs"⟩ :=
    textOf?_of_perm hdistinct hperm fun source member => (hadded source member).notRoot
  have hroot : rootAmong sources' = rootAmong sources := by
    rw [rootAmong_eq, rootAmong_eq, hlib]
  rw [Loads, hroot]
  refine Loader.Loads.of_reads hloads rfl (hread fun source member hsame => ?_) ?_
  · obtain ⟨p, hp, -, -, hpath, -⟩ := (Corpus.isModuleClosure_of_loads hloads).root
    obtain ⟨text, htext, -⟩ := (Corpus.isModuleClosure_of_loads hloads).read p hp
    rw [hpath, ← lookup_ofList] at htext
    have hlisted : rootAmong sources ∈ sources.map (·.1.normalize) :=
      mem_paths_ofList.mp (isSome_lookup_iff.mp (by rw [htext]; rfl))
    exact (hadded source member).new (hsame ▸ hlisted)
  · intro p hp next hdeclares candidate hcandidate
    refine hread fun source member hsame => ?_
    exact (hadded source member).undeclared p hp next hdeclares
      (List.mem_map.mpr ⟨candidate, hcandidate, hsame.symm⟩)

/-- The entries for other paths. -/
def others (t : SourceTable) (path : FilePath) : List (FilePath × String) :=
  t.entries.filter (·.1 ≠ path)

theorem others_insert (t : SourceTable) (path other : FilePath) (text : String) :
    (t.insert other text).others path =
      (t.others path).filter (·.1 ≠ other) ++ [(other, text)].filter (·.1 ≠ path) := by
  simp only [others, insert, List.filter_append, List.filter_filter]
  congr 1
  exact List.filter_congr fun entry _ => Bool.and_comm _ _

/-- A source for a path makes up for whatever was put there before. -/
theorem insert_eq_of_others {t t' : SourceTable} {path : FilePath}
    (h : t.others path = t'.others path)
    (text : String) : t.insert path text = t'.insert path text := by
  have hentries := congrArg (· ++ [(path, text)]) h
  exact congrArg SourceTable.mk hentries

theorem ofList_append (sources more : List (FilePath × String)) :
    ofList (sources ++ more) =
      more.foldl (fun t (path, text) => t.insert path.normalize text) (ofList sources) := by
  rw [ofList, List.foldl_append]
  rfl

theorem others_foldl {t t' : SourceTable} {path : FilePath} (h : t.others path = t'.others path)
    (more : List (FilePath × String)) :
    (more.foldl (fun t (path, text) => t.insert path.normalize text) t).others path =
      (more.foldl (fun t (path, text) => t.insert path.normalize text) t').others path := by
  induction more generalizing t t' with
  | nil => exact h
  | cons source more ih => exact ih (by rw [others_insert, others_insert, h])

/-- Of two sources for one path the earlier leaves nothing behind. -/
theorem ofList_repeated {path path' : FilePath} (hsame : path.normalize = path'.normalize)
    (before between after : List (FilePath × String)) (text text' : String) :
    ofList (before ++ (path, text) :: between ++ (path', text') :: after) =
      ofList (before ++ between ++ (path', text') :: after) := by
  let grow (t : SourceTable) (more : List (FilePath × String)) : SourceTable :=
    more.foldl (fun t (path, text) => t.insert path.normalize text) t
  have hothers : ((ofList before).insert path'.normalize text).others path'.normalize =
      (ofList before).others path'.normalize := by
    rw [others_insert]
    simp [others]
  have hlater :
      (grow ((ofList before).insert path'.normalize text) between).insert path'.normalize text' =
      (grow (ofList before) between).insert path'.normalize text' :=
    insert_eq_of_others (others_foldl hothers between) text'
  calc ofList (before ++ (path, text) :: between ++ (path', text') :: after)
      = grow ((grow ((ofList before).insert path.normalize text) between).insert
          path'.normalize text') after := by
        rw [List.append_assoc, ofList_append]
        simp [grow]
    _ = grow ((grow (ofList before) between).insert path'.normalize text') after := by
        rw [hsame, hlater]
    _ = ofList (before ++ between ++ (path', text') :: after) := by
        rw [List.append_assoc, ofList_append]
        simp [grow]

end SourceTable

namespace Corpus

open SourceTable

/-- A crate depends on the sources of its module tree alone. Where every path is listed once, the
same sources in any order, and beside any others that the loading does not ask for, give the same
crate and the same generated text; and of two sources for one path the earlier does not count,
whether the crate can be loaded or not. -/
theorem ofSources_of_module_tree :
    (∀ (sources : List (FilePath × String)) (placed : List Placed) (c : Corpus),
      (sources.map (·.1.normalize)).Nodup → Loads sources placed → ofSources sources = .ok c →
      ∀ sources' added : List (FilePath × String), sources'.Perm (sources ++ added) →
        (∀ source ∈ added, Unasked sources placed source.1.normalize) →
        ofSources sources' = .ok c ∧ ∀ settings,
          ((ofSources sources').bind fun c' => Pass.generate c' settings) =
            Pass.generate c settings) ∧
    ∀ (before between after : List (FilePath × String)) (path path' : FilePath)
    (text text' : String),
      path.normalize = path'.normalize →
      ofSources (before ++ (path, text) :: between ++ (path', text') :: after) =
        ofSources (before ++ between ++ (path', text') :: after) := by
  constructor
  · intro sources placed c hdistinct hloads hcorpus sources' added hperm hadded
    have hloads' : Loads sources' placed := Loads.of_perm hdistinct hloads hperm hadded
    have hcorpus' : ofSources sources' = .ok c :=
      ofSources_eq_ok_iff.mpr ⟨placed, hloads', files_of_loads hloads hcorpus⟩
    refine ⟨hcorpus', fun settings => ?_⟩
    rw [hcorpus']
    rfl
  · intro before between after path path' text text' hsame
    simp only [ofSources, ofList_repeated hsame]

/-- Sources beside a crate that declares `m` without a body and `n` in place: a text that is none
where a file for `n` would lie, and one that asks for another list. -/
def strays : List (FilePath × String) :=
  [(⟨"./n.rs"⟩, "("), (⟨"k.rs"⟩, "generate_functions_with!(g::Z);")]

/-- Neither stray source is loaded, and the same text is generated as without them. -/
theorem ofSources_beside_strays : ∃ items,
    ofSources (Pass.besideBlock "n") = .ok ⟨[Pass.rootWith items]⟩ ∧
    ofSources (strays ++ Pass.besideBlock "n") = .ok ⟨[Pass.rootWith items]⟩ ∧
    ((ofSources (strays ++ Pass.besideBlock "n")).bind fun c =>
      Pass.generate c Pass.briefSettings) =
      .ok (some (Pass.briefArtifact ["F"])) := by
  have hcheck : (Grammar.parseFile (Pass.blockText "n")).toOption.any
      (fun items => decide (Pass.IsBesideBlock "n" items)) = true := by
    decide +kernel
  obtain ⟨items, hparse, hblock⟩ := Pass.exists_ok_of_any hcheck
  have hitems : Pass.IsBesideBlock "n" items := of_decide_eq_true hblock
  have hcorpus := Pass.ofSources_besideBlock hparse hitems
  have hunasked : ∀ source ∈ strays,
      Unasked (Pass.besideBlock "n") [.ofRoot ⟨"lib.rs"⟩ items] source.1.normalize := by
    have hpaths : ∀ source ∈ strays,
        source.1.normalize ∉ (Pass.besideBlock "n").map (·.1.normalize) ∧
        source.1.normalize ≠ ⟨"lib.rs"⟩ ∧
        source.1.normalize ∉ Pass.vacantModule.candidates.map (·.1) := by
      decide +kernel
    intro source member
    obtain ⟨hnew, hroot, hcandidate⟩ := hpaths source member
    refine ⟨hnew, hroot, fun p hp next hdeclares => ?_⟩
    obtain rfl := List.mem_singleton.mp hp
    rw [← Placed.mem_declaredModules_iff] at hdeclares
    have hdeclared : (Placed.ofRoot ⟨"lib.rs"⟩ items).file.declaredModules
        (Placed.ofRoot ⟨"lib.rs"⟩ items).directory = [Pass.vacantModule] := hitems.1
    rw [hdeclared] at hdeclares
    rwa [List.mem_singleton.mp hdeclares]
  obtain ⟨hsame, hgenerate⟩ := ofSources_of_module_tree.1 _ _ _ (by decide +kernel)
    (Pass.loads_besideBlock hparse hitems) hcorpus (strays ++ Pass.besideBlock "n") strays
    List.perm_append_comm hunasked
  refine ⟨items, hcorpus, hsame, ?_⟩
  rw [hgenerate]
  exact Pass.ok_of_toOption hitems.2.2

end Corpus

end MarkerIndex
