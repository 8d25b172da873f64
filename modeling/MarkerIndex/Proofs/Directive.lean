import MarkerIndex.Crate.Directive
import MarkerIndex.Proofs.Traversal
import Mathlib.Data.List.Nodup
/-!
What a crate asks lists for. Reading its directives gets through only if every one of them names a
known marker, and then it gives these markers and nothing else.
-/

namespace MarkerIndex

namespace Directive

theorem mem_firstSeen {paths : List ItemPath} {p : ItemPath} :
    p ∈ firstSeen paths ↔ p ∈ paths := by
  have hfold : ∀ seen : List ItemPath,
      p ∈ paths.foldl (fun seen p => if seen.contains p then seen else seen ++ [p]) seen ↔
        p ∈ seen ∨ p ∈ paths := by
    induction paths with
    | nil => simp
    | cons first rest ih =>
        intro seen
        rw [List.foldl_cons, ih]
        by_cases hseen : first ∈ seen
        · simp only [List.contains_iff_mem.mpr hseen, ↓reduceIte, List.mem_cons]
          constructor
          · exact Or.imp_right Or.inr
          · rintro (hold | rfl | hnew)
            · exact Or.inl hold
            · exact Or.inl hseen
            · exact Or.inr hnew
        · simp [hseen, or_assoc]
  simpa [firstSeen] using hfold []

theorem nodup_firstSeen (paths : List ItemPath) : (firstSeen paths).Nodup := by
  have hfold : ∀ seen : List ItemPath, seen.Nodup →
      (paths.foldl (fun seen p => if seen.contains p then seen else seen ++ [p]) seen).Nodup := by
    induction paths with
    | nil => exact fun seen hseen => hseen
    | cons first rest ih =>
        intro seen hseen
        rw [List.foldl_cons]
        apply ih
        split
        · exact hseen
        · next hnew =>
            exact hseen.append (List.nodup_singleton first) (by simpa using hnew)
  exact hfold [] List.nodup_nil

variable {c : Corpus} {t : SymbolTable} {settings : Settings} {root : SourceFile}

theorem markers_of_root (hroot : c.root? = some root) : markers c t settings =
    ((calls t settings root).mapM fun call => marker t root call.1 call.2).map firstSeen := by
  simp only [markers, hroot]

/-- Markers are those that the directives contribute one by one. -/
theorem exists_of_markers {found : List ItemPath} (h : markers c t settings = .ok found)
    (hroot : c.root? = some root) : ∃ paths,
      (calls t settings root).mapM (fun call => marker t root call.1 call.2) = .ok paths ∧
      firstSeen paths = found := by
  rw [markers_of_root hroot] at h
  exact Traversal.map_eq_ok_iff.mp h

/-- No marker is asked for twice. -/
theorem nodup_markers {found : List ItemPath} (h : markers c t settings = .ok found) :
    found.Nodup := by
  cases hroot : c.root? with
  | none =>
      obtain rfl : found = [] := by simpa [markers, hroot] using h.symm
      exact List.nodup_nil
  | some root =>
      obtain ⟨paths, -, rfl⟩ := exists_of_markers h hroot
      exact nodup_firstSeen paths

theorem mem_calls {call : WrittenPath} {body : List TokenTree}
    (hcall : .invocation call body ∈ root.items)
    (hdirective : isDirective (t.resolvePath root.module call) settings.directive = true) :
    (call.line, body) ∈ calls t settings root :=
  List.mem_filterMap.mpr ⟨_, hcall, by simp [hdirective]⟩

/-- Every directive at the top of the root file contributes its marker. -/
theorem exists_marker {found : List ItemPath} (h : markers c t settings = .ok found)
    (hroot : c.root? = some root) {call : WrittenPath} {body : List TokenTree}
    (hcall : .invocation call body ∈ root.items)
    (hdirective : isDirective (t.resolvePath root.module call) settings.directive = true) :
    ∃ p ∈ found, marker t root call.line body = .ok p := by
  obtain ⟨paths, hall, rfl⟩ := exists_of_markers h hroot
  obtain ⟨p, hp, hmarker⟩ := Traversal.forall_of_mapM_ok hall _ (mem_calls hcall hdirective)
  exact ⟨p, mem_firstSeen.mpr hp, hmarker⟩

/-- The marker of a directive is what its argument means, and known. -/
theorem of_marker {line : Nat} {body : List TokenTree} {shape : Grammar.PathShape} {p : ItemPath}
    (hshape : Grammar.parsePathTokens body = .ok shape) (h : marker t root line body = .ok p) :
    p = (t.resolvePath root.module shape.path).path ∧
      isKnown t (t.resolvePath root.module shape.path) = true := by
  simp only [marker, hshape] at h
  split at h
  · cases h
  · split at h
    · next hknown => exact ⟨by simpa using h.symm, hknown⟩
    · cases h

end Directive

end MarkerIndex
