import MarkerIndex.Crate.Corpus
import MarkerIndex.Files.Tree
import MarkerIndex.Proofs.FilePath
import Mathlib.Data.List.Dedup
import Mathlib.Data.List.Perm.Basic
/-!
Sources that are listed by path, and the table that is made of them. The table has every path of the
list once, in normal form, with the text that was listed last.
-/

namespace MarkerIndex

/-- The text that a list of sources has for a path in normal form. Of several the last stands. -/
def textOf? (sources : List (FilePath × String)) (path : FilePath) : Option String :=
  (sources.reverse.find? fun source => source.1.normalize = path).map (·.2)

/-- What is added to a list of sources stands. -/
theorem textOf?_append (sources : List (FilePath × String)) (source : FilePath × String)
    (path : FilePath) : textOf? (sources ++ [source]) path =
      if path = source.1.normalize then some source.2 else textOf? sources path := by
  by_cases h : path = source.1.normalize
  · simp [textOf?, h]
  · simp [textOf?, h, Ne.symm h]

theorem textOf?_concat {sources : List (FilePath × String)} {path : FilePath} {text : String}
    (hnormal : path.normalize = path) (other : FilePath) :
    textOf? (sources ++ [(path, text)]) other =
      if other = path then some text else textOf? sources other := by
  rw [textOf?_append, hnormal]

namespace SourceTable

def paths (t : SourceTable) : List FilePath :=
  t.entries.map (·.1)

theorem isSome_lookup_iff {t : SourceTable} {path : FilePath} :
    (t.lookup path).isSome = true ↔ path ∈ t.paths := by
  simp only [lookup, paths, List.lookup_isSome_iff, List.mem_map, beq_iff_eq]
  exact exists_congr fun _ => and_congr_right fun _ => eq_comm

theorem paths_insert (t : SourceTable) (path : FilePath) (text : String) :
    (t.insert path text).paths = t.paths.filter (· ≠ path) ++ [path] := by
  simp [insert, paths, List.filter_map, Function.comp_def]

theorem lookup_insert (t : SourceTable) (path other : FilePath) (text : String) :
    (t.insert path text).lookup other = if other = path then some text else t.lookup other :=
  lookup_filter_ne_concat t.entries path other text

theorem ofList_concat (sources : List (FilePath × String)) (path : FilePath) (text : String) :
    ofList (sources ++ [(path, text)]) = (ofList sources).insert path.normalize text := by
  simp [ofList]

theorem lookup_ofList (sources : List (FilePath × String)) (path : FilePath) :
    (ofList sources).lookup path = textOf? sources path := by
  induction sources using List.reverseRecOn with
  | nil => rfl
  | append_singleton sources source ih =>
      rw [ofList_concat, lookup_insert, ih, textOf?_append]

theorem paths_ofList_nodup (sources : List (FilePath × String)) : (ofList sources).paths.Nodup := by
  induction sources using List.reverseRecOn with
  | nil => simp [ofList, paths]
  | append_singleton sources source ih =>
      rw [ofList_concat, paths_insert]
      exact (ih.filter _).append (by simp) (by simp)

theorem mem_paths_ofList {sources : List (FilePath × String)} {path : FilePath} :
    path ∈ (ofList sources).paths ↔ path ∈ sources.map (·.1.normalize) := by
  rw [← isSome_lookup_iff, lookup_ofList]
  simp [textOf?]

theorem length_ofList (sources : List (FilePath × String)) :
    (ofList sources).entries.length = (sources.map (·.1.normalize)).dedup.length := by
  have hperm : (ofList sources).paths.Perm (sources.map (·.1.normalize)).dedup :=
    (List.perm_ext_iff_of_nodup (paths_ofList_nodup sources) (List.nodup_dedup _)).mpr fun path =>
      mem_paths_ofList.trans List.mem_dedup.symm
  simpa [paths] using hperm.length_eq

theorem isCanonical_of_mem_paths {sources : List (FilePath × String)} :
    ∀ path ∈ (ofList sources).paths, path.IsCanonical := by
  intro path member
  obtain ⟨source, _, rfl⟩ := List.mem_map.mp (mem_paths_ofList.mp member)
  exact FilePath.isCanonical_normalize source.1

end SourceTable

end MarkerIndex
