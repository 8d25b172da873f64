import MarkerIndex.Proofs.QualifiedName
/-!
Items that are handed on from module to module, each import taking the item from the one before by
its full path. Following costs one level for each import, so that a chain leads to the definition
exactly as long as it has fewer imports than a resolution may follow. From a longer chain the path
of the import that is not followed any more comes back, as if it named an item of another crate.
-/

namespace MarkerIndex

namespace SymbolTable

/-- An item of the module `m 0` that each of the modules up to `m k` takes from the one before it,
maybe under another name, and does not declare itself. -/
structure ReexportChain (t : SymbolTable) (k : Nat) (m : Nat → ItemPath) (name : Nat → String) :
    Prop where
  rooted : ∀ i ≤ k, t.Rooted (m i)
  defined : t.declares (m 0) (name 0) = true
  handedOn : ∀ i < k, t.declares (m (i + 1)) (name (i + 1)) = false ∧
    t.import? (m (i + 1)) (name (i + 1)) = some ⟨(m i).segments ++ [name i], false⟩

variable {t : SymbolTable} {m : Nat → ItemPath} {name : Nat → String} {k : Nat}

/-- At every level, the full path of a rooted module leads to that module. -/
theorem Rooted.resolve_above {p : ItemPath} (rooted : t.Rooted p) (lower : Level)
    (other : ItemPath) (skip : Option String) (throughGlobs : Bool) (rest : List String) :
    (lower.above t).resolve ⟨other, ⟨p.segments ++ rest, false⟩, skip, throughGlobs⟩ =
      lower.descendFrom t p rest := by
  obtain ⟨names, hsegments, hwalk⟩ := rooted.descendFrom_crateRoot lower
  rw [hsegments, List.cons_append, ← hwalk]
  rfl

/-- What an item of the chain means at each level. The induction is on the level: one import takes
one level, and at the last level the path of the item stays as it stands. -/
theorem ReexportChain.resolve_ofDepth (chain : t.ReexportChain k m name) (depth : Nat) {i : Nat}
    (hi : i ≤ k) (other : ItemPath) (skip : Option String) (throughGlobs : Bool) :
    (Level.ofDepth t depth).resolve
        ⟨other, ⟨(m i).segments ++ [name i], false⟩, skip, throughGlobs⟩ =
      if i < depth then ⟨(m 0).join (name 0), .local⟩
      else ⟨(m (i - depth)).join (name (i - depth)),
        if depth = 0 then .unscoped else .external⟩ := by
  induction depth generalizing i other skip throughGlobs with
  | zero => simp [Level.ofDepth, Level.last, ItemPath.join]
  | succ depth ih =>
      rw [Level.ofDepth, (chain.rooted i hi).resolve_above]
      cases i with
      | zero =>
          rw [Level.descendFrom_declared (chain.rooted 0 hi).isModule chain.defined]
          simp
      | succ i =>
          -- the import is followed one level below, to the item before this one
          obtain ⟨hdeclared, himport⟩ := chain.handedOn i (by omega)
          rw [Level.descendFrom_imported hdeclared himport, Level.append_nil, Level.followImport,
            ih (by omega)]
          by_cases hfound : i < depth
          · simp [hfound]
          · by_cases hlast : depth = 0 <;> simp [hfound, hlast]

/-- From every module, the full path of an item at the end of a chain means the definition exactly
as long as the chain is short enough. Else it means the item at which following stopped. -/
theorem resolve_reexported (chain : t.ReexportChain k m name) (other : ItemPath) :
    t.resolve other ((m k).segments ++ [name k]) false =
      if k < Level.depthLimit then ⟨(m 0).join (name 0), .local⟩
      else ⟨(m (k - Level.depthLimit)).join (name (k - Level.depthLimit)), .external⟩ :=
  chain.resolve_ofDepth Level.depthLimit (Nat.le_refl k) other none true

/-- Modules inside each other, each of which takes `T` from the one around it. -/
def passingOn (around : List String) : Nat → List Item
  | 0 => []
  | n + 1 =>
    [.submodule "m" [] (some (.use false (around.foldr .path (.name "T")) ::
      passingOn (around ++ ["m"]) n))]

/-- An item of the root, handed on `k` times. -/
def relay (k : Nat) : List Item :=
  .declaration "T" :: passingOn ["crate"] k

def relayModule (i : Nat) : ItemPath :=
  ⟨"crate" :: List.replicate i "m"⟩

theorem resolve_end_of_relay :
    ((Corpus.ofItems (relay 16)).table []).ReexportChain 16 relayModule (fun _ => "T") ∧
      ∀ other, ((Corpus.ofItems (relay 16)).table []).resolve other
        ((relayModule 16).segments ++ ["T"]) false = ⟨⟨["crate", "T"]⟩, .local⟩ := by
  have tree := Corpus.isTree_table (Corpus.loaded_ofItems (relay 16) (by decide +kernel))
    (by decide +kernel) []
  have hmodules : ∀ i ≤ 16,
      ((Corpus.ofItems (relay 16)).table []).isModule (relayModule i) = true := by
    decide +kernel
  have chain : ((Corpus.ofItems (relay 16)).table []).ReexportChain 16 relayModule
      (fun _ => "T") :=
    ⟨fun i hi => tree.rooted (hmodules i hi), by decide +kernel, by decide +kernel⟩
  exact ⟨chain, fun other => resolve_reexported chain other⟩

theorem resolve_lost_in_relay :
    (Corpus.ofItems (relay 17)).Loaded ∧ (Corpus.ofItems (relay 17)).NamesModulesPlainly ∧
      ((Corpus.ofItems (relay 17)).table []).hasItem .crateRoot "T" = true ∧
      (∀ i < 17,
        ((Corpus.ofItems (relay 17)).table []).declares (relayModule (i + 1)) "T" = false ∧
        ((Corpus.ofItems (relay 17)).table []).import? (relayModule (i + 1)) "T" =
          some ⟨(relayModule i).segments ++ ["T"], false⟩) ∧
      ((Corpus.ofItems (relay 17)).table []).resolve .crateRoot
        ((relayModule 17).segments ++ ["T"]) false = ⟨⟨["crate", "T"]⟩, .external⟩ :=
  ⟨Corpus.loaded_ofItems (relay 17) (by decide +kernel), by decide +kernel, by decide +kernel,
    by decide +kernel, by decide +kernel⟩

end SymbolTable

end MarkerIndex
