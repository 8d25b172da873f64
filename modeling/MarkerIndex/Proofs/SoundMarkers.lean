import MarkerIndex.Proofs.Departure
import MarkerIndex.Proofs.KnownItems
import MarkerIndex.Proofs.LoadedFiles
import MarkerIndex.Proofs.MarkerWords
import MarkerIndex.Proofs.Pass
import MarkerIndex.Proofs.Registry
/-!
Markers that name nothing. A marker should be an item that the crate declares, or one of another
crate. What a directive asks for may be neither: where its path is cut off, since imports lead in a
circle or too far, the directive is not refused but taken to mean an item of another crate, and so
is a path behind a double colon that begins with a word which names no crate. Nothing else goes
wrong.
-/

namespace MarkerIndex

/-- The path is one of this crate that is declared, or one of another crate. -/
def SymbolTable.Sound (t : SymbolTable) (p : ItemPath) : Prop :=
  p.isLocal = true ∧ t.contains p = true ∨ p.isForeign = true

instance (t : SymbolTable) (p : ItemPath) : Decidable (t.Sound p) :=
  inferInstanceAs (Decidable (p.isLocal = true ∧ t.contains p = true ∨ p.isForeign = true))

/-- The root file of a crate that was loaded stands for the root of the crate. -/
theorem Corpus.Loaded.module_root {c : Corpus} (loaded : c.Loaded) {root : SourceFile}
    (hroot : c.root? = some root) : root.module = .crateRoot := by
  obtain ⟨l, limit, path, text, h⟩ := loaded
  have hfile := (Loading.mem_files_of_corpus h).mp (List.mem_of_find?_eq_some hroot)
  exact (l.parsed_of_load limit path text root hfile).1 (by simpa using List.find?_some hroot)

namespace Directive

/-- The body of a call at the top of the root file, which asks for a list, is a path without
arguments. -/
structure Requests (t : SymbolTable) (settings : Settings) (root : SourceFile)
    (body : List TokenTree)
    (path : WrittenPath) : Prop where
  asks : ∃ call, .invocation call body ∈ root.items ∧ Asks t settings root call
  reads : ∃ shape, Grammar.parsePathTokens body = .ok shape ∧ shape.plain = true ∧ shape.path = path

section

variable {t : SymbolTable} {settings : Settings} {root : SourceFile} {body : List TokenTree}
  {path : WrittenPath} {m : ItemPath} {c : Corpus} {found : List ItemPath}

theorem exists_of_mem_calls {line : Nat} (h : (line, body) ∈ calls t settings root) :
    ∃ call, .invocation call body ∈ root.items ∧ Asks t settings root call := by
  rw [calls_eq_filterMap] at h
  obtain ⟨item, hitem, hcall⟩ := List.mem_filterMap.mp h
  cases item with
  | invocation call inside =>
      obtain ⟨hasks, hsame⟩ := Option.ite_none_right_eq_some.mp hcall
      obtain ⟨-, rfl⟩ : call.line = line ∧ inside = body := by simpa using hsame
      exact ⟨call, hitem, isDirective_iff.mp hasks⟩
  | _ => cases hcall

/-- Every marker is what the path of some request means. -/
theorem exists_request (h : markers c t settings = .ok found) (hroot : c.root? = some root)
    (hm : m ∈ found) : ∃ body path, Requests t settings root body path ∧
      m = (t.resolvePath root.module path).path ∧ Known t (t.resolvePath root.module path) := by
  obtain ⟨paths, hall, rfl⟩ := exists_of_markers h hroot
  obtain ⟨⟨line, body⟩, hcall, hmarker⟩ := Traversal.exists_of_mapM_ok hall m (mem_firstSeen.mp hm)
  cases marker_eq_ok_iff.mp hmarker with
  | @path shape hshape hplain hknown =>
      exact ⟨body, shape.path, ⟨exists_of_mem_calls hcall, shape, hshape, hplain, rfl⟩, rfl, hknown⟩

theorem Requests.mem_found (request : Requests t settings root body path)
    (h : markers c t settings = .ok found) (hroot : c.root? = some root)
    (hnames : Names t root body m) :
    m ∈ found := by
  obtain ⟨call, hcall, hasks⟩ := request.asks
  obtain ⟨p, hp, hmarker⟩ := exists_marker h hroot hcall (isDirective_iff.mpr hasks)
  rw [marker_eq_ok_iff.mpr hnames] at hmarker
  exact Except.ok.inj hmarker ▸ hp

/-- A request that departs, other than at a name, gets what it departs for. -/
theorem Requests.names (request : Requests t settings root body path) {exit : WayOut}
    (departs : t.Departs root.module path exit m)
    (hexit : exit ≠ .unknown) : Names t root body m := by
  obtain ⟨shape, hshape, hplain, rfl⟩ := request.reads
  obtain ⟨rfl, -, horigin⟩ := departs.resolvePath
  exact .path hshape hplain (Or.inl (horigin hexit))

end

/-- A directive whose path departs at the last level or behind a double colon is always accepted,
and so is one whose path leads to imports without end. The markers of a loaded crate are declared in
it or items of other crates just where all that departs in this way is sound nevertheless. -/
theorem markers_sound_iff {c : Corpus} (loaded : c.Loaded) {root : SourceFile}
    (hroot : c.root? = some root)
    (t : SymbolTable) (settings : Settings) :
    (∀ body path, Requests t settings root body path → ∀ exit m,
      t.Departs root.module path exit m → exit ≠ .unknown → Names t root body m) ∧
    (∀ S, t.Endless S → ∀ body path, Requests t settings root body path →
      S (.find ⟨root.module, ⟨path.segments, path.leadingColon⟩, none, true⟩) →
      ∃ m, t.Departs root.module path .cutOff m ∧ Names t root body m) ∧
    ∀ found, markers c t settings = .ok found →
      ((∀ m ∈ found, t.Sound m) ↔
        ∀ body path, Requests t settings root body path → ∀ exit m,
          t.Departs root.module path exit m → exit ≠ .unknown → t.Sound m) := by
  refine ⟨fun body path request exit m => request.names, ?_, fun found h => ⟨?_, ?_⟩⟩
  · intro S endless body path request hsearch
    obtain ⟨m, departs⟩ : ∃ m, t.Departs root.module path .cutOff m :=
      endless.leaves hsearch (Or.inr rfl)
    exact ⟨m, departs, request.names departs nofun⟩
  · intro hsound body path request exit m departs hexit
    exact hsound m (request.mem_found h hroot (request.names departs hexit))
  · intro hdeparting m hm
    obtain ⟨body, path, request, rfl, hknown⟩ := exists_request h hroot hm
    have hinside : root.module.isLocal = true := by
      rw [loaded.module_root hroot]
      rfl
    obtain ⟨p, hp, hlocal⟩ | ⟨exit, p, departs⟩ := t.local_or_departs hinside path
    · rw [hp] at hknown ⊢
      obtain hexternal | ⟨-, hcontains⟩ := hknown
      · cases hexternal
      · exact Or.inl ⟨hlocal, hcontains⟩
    · rw [departs.resolvePath.1]
      by_cases hexit : exit = .unknown
      · subst hexit
        exact Or.inr (SymbolTable.Leaves.isForeign departs)
      · exact hdeparting body path request exit p departs hexit

/-- Two imports that lead to each other, and a directive that asks for one of them. -/
def circular : List Item :=
  [.use false (.path "self" (.rename "a" "b")), .use false (.path "self" (.rename "b" "a")),
   .invocation ⟨false, ["generate_functions_with"], 3⟩ [.leaf ⟨3, 26⟩ (.word "a")]]

/-- What is looked up for the directive. -/
def circularSearches : List Search :=
  [.find ⟨.crateRoot, ⟨["a"], false⟩, none, true⟩,
    .find ⟨.crateRoot, ⟨["self", "b"], false⟩, some "a", true⟩,
   .find ⟨.crateRoot, ⟨["self", "a"], false⟩, some "b", true⟩, .walk .crateRoot ["a"],
   .walk .crateRoot ["b"]]

theorem endless_circular : ((Corpus.ofItems circular).table []).Endless (· ∈ circularSearches) where
  path q hq := by
    simp only [circularSearches, List.mem_cons, Search.find.injEq, reduceCtorEq, List.not_mem_nil,
      or_false] at hq
    rcases hq with rfl | rfl | rfl <;> simp
  step search hsearch lower := by
    simp only [circularSearches, List.mem_cons, List.not_mem_nil, or_false] at hsearch
    rcases hsearch with rfl | rfl | rfl | rfl | rfl
    · exact Or.inr ⟨.crateRoot, "a", ⟨["self", "b"], false⟩, [], rfl, by simp [circularSearches]⟩
    · exact Or.inl ⟨.crateRoot, ["b"], rfl, by simp [circularSearches]⟩
    · exact Or.inl ⟨.crateRoot, ["a"], rfl, by simp [circularSearches]⟩
    · exact Or.inr ⟨.crateRoot, "a", ⟨["self", "b"], false⟩, [], rfl, by simp [circularSearches]⟩
    · exact Or.inr ⟨.crateRoot, "b", ⟨["self", "a"], false⟩, [], rfl, by simp [circularSearches]⟩

/-- The name in the directive. -/
def circularBody : List TokenTree :=
  [.leaf ⟨3, 26⟩ (.word "a")]

def circularFile : SourceFile :=
  ⟨⟨"lib.rs"⟩, .crateRoot, circular, true⟩

theorem markers_sound_iff_circular :
    (Corpus.ofItems circular).Loaded ∧ (Corpus.ofItems circular).root? = some circularFile ∧
    (∃ m, ((Corpus.ofItems circular).table []).Departs .crateRoot ⟨false, ["a"], 3⟩ .cutOff m ∧
      Names ((Corpus.ofItems circular).table []) circularFile circularBody m) ∧
    markers (Corpus.ofItems circular) ((Corpus.ofItems circular).table []) .standard =
      .ok [⟨["self", "b"]⟩] ∧
    ¬ ∀ body path, Requests ((Corpus.ofItems circular).table []) .standard circularFile body path →
      ∀ exit m, ((Corpus.ofItems circular).table []).Departs .crateRoot path exit m →
      exit ≠ .unknown →
        ((Corpus.ofItems circular).table []).Sound m := by
  have hloaded : (Corpus.ofItems circular).Loaded :=
    Corpus.loaded_ofItems circular (by decide +kernel)
  have hroot : (Corpus.ofItems circular).root? = some circularFile := rfl
  have hmarkers : markers (Corpus.ofItems circular) ((Corpus.ofItems circular).table []) .standard =
      .ok [⟨["self", "b"]⟩] := Pass.ok_of_toOption (by decide +kernel)
  have hrequest : Requests ((Corpus.ofItems circular).table []) .standard circularFile circularBody
      ⟨false, ["a"], 3⟩ :=
    ⟨⟨⟨false, ["generate_functions_with"], 3⟩, by simp [circularFile, circular, circularBody],
      isDirective_iff.mp (by decide +kernel)⟩, ⟨_, rfl, rfl, rfl⟩⟩
  obtain ⟨-, hendless, hsound⟩ :=
    markers_sound_iff hloaded hroot ((Corpus.ofItems circular).table []) .standard
  refine ⟨hloaded, hroot,
    hendless _ endless_circular _ _ hrequest (by simp [circularFile, circularSearches]),
    hmarkers, fun hdeparting => ?_⟩
  have hself : ((Corpus.ofItems circular).table []).Sound ⟨["self", "b"]⟩ :=
    (hsound _ hmarkers).mpr hdeparting _ (by simp)
  exact absurd hself (by decide +kernel)

/-- A directive that asks for a path behind a double colon. -/
def rootedAtCrate : List Item :=
  [.invocation ⟨false, ["generate_functions_with"], 1⟩
    [.leaf ⟨1, 26⟩ (.punct ':' true), .leaf ⟨1, 27⟩ (.punct ':' false),
      .leaf ⟨1, 28⟩ (.word "crate"),
     .leaf ⟨1, 33⟩ (.punct ':' true), .leaf ⟨1, 34⟩ (.punct ':' false), .leaf ⟨1, 35⟩ (.word "X")]]

theorem markers_dangle_in_circular :
    Corpus.ofSources
        [(⟨"lib.rs"⟩, "use self::a as b;\nuse self::b as a;\ngenerate_functions_with!(a);")] =
      .ok (Corpus.ofItems circular) ∧
    (markers (Corpus.ofItems circular) ((Corpus.ofItems circular).table []) .standard).toOption =
      some [⟨["self", "b"]⟩] ∧
    ¬ ((Corpus.ofItems circular).table []).Sound ⟨["self", "b"]⟩ ∧
    Corpus.ofSources [(⟨"lib.rs"⟩, "generate_functions_with!(::crate::X);")] =
      .ok (Corpus.ofItems rootedAtCrate) ∧
    (markers (Corpus.ofItems rootedAtCrate) ((Corpus.ofItems rootedAtCrate).table [])
      .standard).toOption =
      some [⟨["crate", "X"]⟩] ∧
    ¬ ((Corpus.ofItems rootedAtCrate).table []).Sound ⟨["crate", "X"]⟩ := by
  have hcircular :
      Grammar.parseFile "use self::a as b;\nuse self::b as a;\ngenerate_functions_with!(a);" =
      .ok circular := Item.parse_of_sameAll (by decide +kernel)
  have hrooted : Grammar.parseFile "generate_functions_with!(::crate::X);" = .ok rootedAtCrate :=
    Item.parse_of_sameAll (by decide +kernel)
  exact ⟨Corpus.ofSources_library hcircular (by decide +kernel),
    by decide +kernel, by decide +kernel,
    Corpus.ofSources_library hrooted (by decide +kernel), by decide +kernel, by decide +kernel⟩

end Directive

end MarkerIndex
