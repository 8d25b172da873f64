import MarkerIndex.Encoding
import MarkerIndex.Proofs.JsonText
import MarkerIndex.Proofs.KnownItems
import MarkerIndex.Proofs.LoadedFiles
import MarkerIndex.Proofs.MarkerWords
import MarkerIndex.Proofs.Pass
import MarkerIndex.Proofs.PathText
import MarkerIndex.Proofs.Scan
/-!
Reading back what a report says of the functions of a crate. A declaration is read back just when
its module and its markers are spelled in words of paths, since all else is written as it is. A
module lacks such a spelling where a file stands for a name that needs the mark of raw names. A
marker lacks it where an attribute is marked as unsafe: the keyword is looked up like a name,
nothing can bind it, and so it stays at the end of whatever it is taken for.
-/

namespace MarkerIndex

/-- What holds of the elements of one list just when it holds of those that they are paired with. -/
theorem forall_mem_congr {α β : Type} {P : α → Prop} {Q : β → Prop} {as : List α} {bs : List β}
    (h : List.Forall₂ (fun a b => P a ↔ Q b) as bs) : (∀ a ∈ as, P a) ↔ ∀ b ∈ bs, Q b := by
  induction h with
  | nil => simp
  | cons hfirst _ ih => rw [List.forall_mem_cons, List.forall_mem_cons, hfirst, ih]

namespace Json

/-- A list is read back as a list of what its items are read back as. -/
theorem decodeItems_map_eq_ok_iff {α : Type} {decode : Decoder α} {encode : α → Json}
    {values found : List α} {index : Nat} :
    decodeItems decode index (values.map encode) = .ok found ↔
      List.Forall₂ (fun a b => decode (encode a) = .ok b) values found := by
  induction values generalizing index found with
  | nil => cases found <;> simp [decodeItems]
  | cons a values ih =>
      rw [List.map_cons, decodeItems]
      cases hread : decode (encode a) with
      | error failure => simp [under, List.forall₂_cons_left_iff, hread]
      | ok b =>
          simp only [under, List.forall₂_cons_left_iff, hread, Except.ok.injEq, ← @ih _ (index + 1)]
          cases decodeItems decode (index + 1) (values.map encode) with
          | error failure => simp [Except.map]
          | ok later => simp [Except.map, eq_comm]

/-- A list is read back just when each of its items is. -/
theorem decodeList_map_eq_ok_iff {α : Type} {quoted : String → String} {decode : Decoder α}
    {encode : α → Json} {values : List α} :
    decodeList quoted decode (.array (values.map encode)) = .ok values ↔
      ∀ a ∈ values, decode (encode a) = .ok a :=
  decodeItems_map_eq_ok_iff.trans List.forall₂_same

theorem decodeOption_ofOption (text : Option String) (expected : String) :
    decodeOption (decodeText Encoding.quoted expected) (ofOption .string text) = .ok text := by
  cases text <;> rfl

end Json

namespace ItemPath

theorem decode_toJson_iff (p : ItemPath) :
    decode p.toJson = .ok p ↔ p.Spells Grammar.IsSegment := by
  rw [← parse?_display_iff, decode, toJson]
  dsimp only [Json.decodeText]
  cases hread : parse? p.display with
  | none => simp [Json.fail]
  | some q => simp

end ItemPath

namespace Declaration

/-- All of a declaration but its module and its markers is read back in any case. -/
theorem decode_toJson_eq_ok_iff {d found : Declaration} :
    decode d.toJson = .ok found ↔
      ∃ module markers, ItemPath.decode d.module.toJson = .ok module ∧
        Json.decodeList Encoding.quoted ItemPath.decode
          (.array (d.markers.map ItemPath.toJson)) = .ok markers ∧
        found = { d with module := module, markers := markers } := by
  have howner := Json.decodeOption_ofOption d.owner "a string"
  have hregistration := Json.decodeOption_ofOption d.registration "a string"
  have hline : Json.decodeNat Encoding.quoted "usize" (.integer d.line) = .ok d.line := by
    simp [Json.decodeNat]
  rw [decode, toJson, Json.Shape.read]
  cases hmodule : ItemPath.decode d.module.toJson with
  | error failure => simp [Json.Shape.putFields, shape, Draft.put, hmodule, Json.under, Except.map]
  | ok module =>
      cases hmarkers : Json.decodeList Encoding.quoted ItemPath.decode
          (.array (d.markers.map ItemPath.toJson)) with
      | error failure =>
          simp [Json.Shape.putFields, shape, Draft.put, hmodule, howner, hline, hmarkers,
            Json.decodeText, Json.under, Except.map]
      | ok markers =>
          simp [Json.Shape.putFields, shape, Draft.put, Draft.finish, Draft.empty, hmodule, howner,
            hline, hmarkers, hregistration, Json.decodeText, Json.under, Except.map, Json.required,
            Bind.bind, Except.bind, Pure.pure, Except.pure, eq_comm]

/-- The declaration is spelled in words of paths. -/
def Spelled (d : Declaration) : Prop :=
  d.module.Spells Grammar.IsSegment ∧ ∀ p ∈ d.markers, p.Spells Grammar.IsSegment

theorem decode_toJson_iff (d : Declaration) : decode d.toJson = .ok d ↔ d.Spelled := by
  have hmarkers : Json.decodeList Encoding.quoted ItemPath.decode
      (.array (d.markers.map ItemPath.toJson)) = .ok d.markers ↔
        ∀ p ∈ d.markers, p.Spells Grammar.IsSegment := by
    simp only [Json.decodeList_map_eq_ok_iff, ItemPath.decode_toJson_iff]
  rw [Spelled, ← ItemPath.decode_toJson_iff, ← hmarkers, decode_toJson_eq_ok_iff]
  constructor
  · rintro ⟨module, markers, hmodule, hread, hsame⟩
    obtain rfl : d.module = module := congrArg Declaration.module hsame
    obtain rfl : d.markers = markers := congrArg Declaration.markers hsame
    exact ⟨hmodule, hread⟩
  · rintro ⟨hmodule, hread⟩
    exact ⟨d.module, d.markers, hmodule, hread, rfl⟩

/-- Declarations are read back from their text just when all of them are spelled in words of paths.
-/
theorem ofText_listToJson_iff (declarations : List Declaration) :
    ofText (listToJson declarations).text = .ok declarations ↔ ∀ d ∈ declarations, d.Spelled := by
  have hread : ofText (listToJson declarations).text = .ok declarations ↔
      decodeList (listToJson declarations) = .ok declarations := by
    rw [ofText, Json.ofText?_text]
    dsimp only
    split <;> simp_all
  rw [hread, listToJson, decodeList, Json.decodeList_map_eq_ok_iff]
  simp only [decode_toJson_iff]

end Declaration

namespace Level

variable {t : SymbolTable} {name : String}

/-- Going down by the name alone ends with the name. -/
def EndsWith (l : Level) (name : String) : Prop :=
  ∀ m, ∃ above : ItemPath, (l.descend m [name]).path = above.join name

theorem EndsWith.descendFrom {lower : Level} (ends : lower.EndsWith name)
    (hunbound : ∀ m, t.import? m name = none) (m : ItemPath) :
    ∃ above : ItemPath, (lower.descendFrom t m [name]).path = above.join name := by
  cases hmodule : t.isModule m with
  | false => exact ⟨m, by rw [descendFrom_outside hmodule]; rfl⟩
  | true =>
      cases hdeclared : t.declares m name with
      | true => exact ⟨m, by rw [descendFrom_declared hmodule hdeclared, descendFrom_nil]⟩
      | false =>
          rw [descendFrom_unbound hmodule hdeclared (hunbound m)]
          split
          · next source _ => exact ends source
          · exact ⟨m, rfl⟩

theorem endsWith_ofDepth (hunbound : ∀ m, t.import? m name = none) (depth : Nat) :
    (ofDepth t depth).EndsWith name := by
  induction depth with
  | zero => exact fun m => ⟨m, rfl⟩
  | succ depth ih => exact ih.descendFrom hunbound

end Level

/-- A name that no import binds stands at the end of whatever it means. -/
theorem SymbolTable.exists_resolve_eq_join {t : SymbolTable} {name : String}
    (hname : name ∉ ItemPath.pathWords) (hunbound : ∀ m, t.import? m name = none) (m : ItemPath)
    (leadingColon : Bool) :
    ∃ above : ItemPath, (t.resolve m [name] leadingColon).path = above.join name := by
  have hdescend := (Level.endsWith_ofDepth hunbound (Level.depthLimit - 1)).descendFrom hunbound
  cases leadingColon with
  | true => exact ⟨⟨[]⟩, rfl⟩
  | false =>
      rw [resolve_name hname, Level.resolveName]
      simp only [hunbound, ite_self]
      split
      · exact hdescend m
      · split
        · next source _ => exact hdescend source
        · split
          · next p hp =>
              obtain ⟨target, -, hfound⟩ :=
                List.exists_of_findSome?_eq_some (Option.ite_none_right_eq_some.mp hp).2
              obtain rfl := Option.some.inj (Option.ite_none_right_eq_some.mp hfound).2
              exact ⟨_, rfl⟩
          · exact ⟨⟨[]⟩, rfl⟩

namespace Attribute

variable {t : SymbolTable} {m : ItemPath} {a : Attribute}

/-- The attribute is marked as unsafe. What it marks stands in brackets and is not looked at. -/
def IsUnsafe (a : Attribute) : Prop :=
  a.path.segments = ["unsafe"]

instance (a : Attribute) : Decidable a.IsUnsafe :=
  inferInstanceAs (Decidable (_ = _))

/-- In a crate of words of paths, a mark has an identity in such words unless it is the keyword. -/
theorem spells_identity_iff (spells : t.Spells Grammar.IsSegment) (hm : m.Spells Grammar.IsSegment)
    (ha : Grammar.AllSegments a.words) :
    (a.identity t m).Spells Grammar.IsSegment ↔ ¬ a.IsUnsafe := by
  constructor
  · intro hidentity hunsafe
    have hunbound : ∀ m, t.import? m "unsafe" = none := by
      intro m
      refine Option.eq_none_iff_forall_ne_some.mpr fun target himport => ?_
      have hname := (spells.facts m _ (SymbolTable.mem_facts_of_import? himport)).1
      exact absurd hname (by decide)
    obtain ⟨above, hjoin⟩ :=
      SymbolTable.exists_resolve_eq_join (by decide) hunbound m a.path.leadingColon
    rw [identity, SymbolTable.resolvePath, hunsafe, hjoin] at hidentity
    have hword := hidentity.simpleName
    rw [ItemPath.simpleName_join] at hword
    exact absurd hword (by decide)
  · intro hsafe
    have hwords : a.words = a.path.segments := if_neg hsafe
    rw [hwords] at ha
    exact spells.resolve hm ha _

end Attribute

namespace Declaration

/-- The declaration of a function is spelled in words of paths just when its module is and none of
its marks is marked as unsafe. -/
theorem Describes.spelled_iff {t : SymbolTable} {registration : ItemPath} {place : Place}
    {f : Function} {d : Declaration} (h : Describes t registration place f d)
    (spells : t.Spells Grammar.IsSegment) (hf : Grammar.AllSegments f.words) :
    d.Spelled ↔ place.module.Spells Grammar.IsSegment ∧ ∀ a ∈ f.marks, ¬ a.IsUnsafe := by
  have hmarks : ∀ a ∈ f.marks, Grammar.AllSegments a.words := fun a ha =>
    List.forall_mem_flatMap.mp hf a (List.mem_filter.mp ha).1
  rw [Spelled, h.module]
  refine and_congr_right fun hmodule => ?_
  simp only [h.markers.mem_iff, List.forall_mem_map]
  exact forall₂_congr fun a ha => Attribute.spells_identity_iff spells hmodule (hmarks a ha)

end Declaration

namespace Pass

theorem declarations_of_analyze {c : Corpus} {settings : Settings} {r : Report}
    (h : analyze c settings = .ok r) :
    ∃ external, r.declarations =
      Declaration.ofCorpus (c.table external) settings.registration c := by
  obtain ⟨-, hreport⟩ := analyze_eq_ok_iff.mp h
  refine ⟨[settings.registration, settings.directive] ++ r.markers, ?_⟩
  rw [← Corpus.withExternal_table]
  exact congrArg Report.declarations hreport

/-- The functions of a report are read back from their text just when each marked function stands in
a module whose names may stand in a path, and none of its marks is marked as unsafe. -/
theorem ofText_report_iff {c : Corpus} (parsed : c.Parsed) {settings : Settings} {r : Report}
    (h : analyze c settings = .ok r) :
    Declaration.ofText (Declaration.listToJson r.declarations).text = .ok r.declarations ↔
      ∀ address place f, Declaration.StandsAt c address place f → f.marks ≠ [] →
        place.module.Spells Grammar.IsSegment ∧ ∀ a ∈ f.marks, ¬ a.IsUnsafe := by
  obtain ⟨external, hdeclarations⟩ := declarations_of_analyze h
  obtain ⟨sites, -, hsites, hall⟩ := Declaration.ofCorpus_describes c external settings.registration
  rw [← hdeclarations] at hall
  have hstands := (List.forall₂_and_left _ _).mpr ⟨fun s hs => ((hsites s).mp hs).1, hall⟩
  have hspelled : List.Forall₂ (fun s d => (s.place.module.Spells Grammar.IsSegment ∧
      ∀ a ∈ s.function.marks, ¬ a.IsUnsafe) ↔ d.Spelled) sites r.declarations :=
    hstands.imp fun s d ⟨hs, hd, _⟩ =>
      (hd.spelled_iff (parsed.spells external) (hs.allSegments parsed)).symm
  rw [Declaration.ofText_listToJson_iff, ← forall_mem_congr hspelled]
  constructor
  · intro hsite address place f hf hmarks
    exact hsite ⟨address, place, f⟩ ((hsites _).mpr ⟨hf, hmarks⟩)
  · intro hfunctions s hs
    obtain ⟨hf, hmarks⟩ := (hsites s).mp hs
    exact hfunctions s.address s.place s.function hf hmarks

/-- A library of one function and what is written about it. -/
def markedLibrary (mark : Attribute) : Corpus :=
  ⟨[(Placed.ofRoot ⟨"lib.rs"⟩ [.function ⟨[mark], "f", 1⟩]).file]⟩

theorem ofSources_markedLibrary {mark : Attribute} {text : String}
    (h : Grammar.parseFile text = .ok [.function ⟨[mark], "f", 1⟩]) :
    Corpus.ofSources [(⟨"lib.rs"⟩, text)] = .ok (markedLibrary mark) :=
  Corpus.ofSources_library h rfl

/-- A function of a raw name under a raw mark is read back. -/
theorem ofText_report_raw : ∃ (c : Corpus) (r : Report),
    Corpus.ofSources [(⟨"lib.rs"⟩, "#[r#fn] fn f() {}")] = .ok c ∧
    analyze c .standard = .ok r ∧ r.declarations.length = 1 ∧
    Declaration.ofText (Declaration.listToJson r.declarations).text = .ok r.declarations := by
  let mark : Attribute := ⟨false, ⟨false, ["r#fn"], 1⟩, .none⟩
  have hcorpus : Corpus.ofSources [(⟨"lib.rs"⟩, "#[r#fn] fn f() {}")] = .ok (markedLibrary mark) :=
    ofSources_markedLibrary (Item.parse_of_sameAll (by decide +kernel))
  have hcheck : (analyze (markedLibrary mark) .standard).toOption.any (fun r =>
      decide (r.declarations.length = 1)) = true := by
    decide +kernel
  obtain ⟨r, hreport, hlength⟩ := exists_ok_of_any hcheck
  refine ⟨_, r, hcorpus, hreport, of_decide_eq_true hlength, ?_⟩
  refine (ofText_report_iff (Corpus.parsed_of_ofSources hcorpus) hreport).mpr ?_
  intro address place f hf _
  have hall : Declaration.standingIn (markedLibrary mark) =
      [⟨[0, 0], ⟨⟨"lib.rs"⟩, .crateRoot, none⟩, ⟨[mark], "f", 1⟩⟩] := rfl
  have hstands :
      (⟨address, place, f⟩ : Declaration.Standing) ∈ Declaration.standingIn (markedLibrary mark) :=
    Declaration.mem_standingIn.mpr hf
  rw [hall, List.mem_singleton] at hstands
  cases hstands
  exact ⟨ItemPath.spells_crateRoot (by decide), by decide +kernel⟩

/-- A function whose mark is marked as unsafe is not read back. -/
theorem ofText_report_unsafe : ∃ (c : Corpus) (r : Report),
    Corpus.ofSources [(⟨"lib.rs"⟩, "#[unsafe(no_mangle)] fn f() {}")] = .ok c ∧
    analyze c .standard = .ok r ∧
    Declaration.ofText (Declaration.listToJson r.declarations).text ≠ .ok r.declarations := by
  let mark : Attribute :=
    ⟨false, ⟨false, ["unsafe"], 1⟩, .tokens [.leaf ⟨1, 10⟩ (.word "no_mangle")]⟩
  have hcorpus : Corpus.ofSources [(⟨"lib.rs"⟩, "#[unsafe(no_mangle)] fn f() {}")] =
      .ok (markedLibrary mark) :=
    ofSources_markedLibrary (Item.parse_of_sameAll (by decide +kernel))
  have hcheck : (analyze (markedLibrary mark) .standard).toOption.any (fun r =>
      decide (r.declarations.map (·.markers) = [[⟨["unsafe"]⟩]])) = true := by
    decide +kernel
  obtain ⟨r, hreport, hmarkers⟩ := exists_ok_of_any hcheck
  refine ⟨_, r, hcorpus, hreport, ?_⟩
  rw [Ne, Declaration.ofText_listToJson_iff]
  intro hspelled
  obtain ⟨d, hd, hsingle⟩ : ∃ d ∈ r.declarations, d.markers = [⟨["unsafe"]⟩] :=
    List.mem_map.mp (of_decide_eq_true hmarkers ▸ List.mem_singleton.mpr rfl)
  have hmark := (hspelled d hd).2 ⟨["unsafe"]⟩ (by simp [hsingle])
  exact absurd (hmark.words "unsafe" (by simp)) (by decide)

end Pass

end MarkerIndex
