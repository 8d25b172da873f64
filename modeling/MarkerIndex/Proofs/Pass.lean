import MarkerIndex.Pass
import MarkerIndex.Proofs.Binding
import Mathlib.Data.List.Forall2
import Mathlib.Data.List.Pairwise
/-!
What one pass gives, told without its stages. `Listed` says which names belong on the list of a
marker and in which order; `Classifies` says it of all requested markers. The main statement is that
reporting and generating both follow these for every crate, and that generating fails exactly where
two requested markers end in the same name.
-/

namespace MarkerIndex

/-- The names that the functions of a scan put on the list of one marker: those of the functions
that have a name and carry the marker, in scan order, each as often as it occurs. -/
inductive Listed (marker : ItemPath) : List Declaration → List String → Prop
  | nil : Listed marker [] []
  | on {d : Declaration} {scan : List Declaration} {name : String} {names : List String} :
      d.registration = some name → marker ∈ d.markers → Listed marker scan names →
      Listed marker (d :: scan) (name :: names)
  | unnamed {d : Declaration} {scan : List Declaration} {names : List String} :
      d.registration = none → Listed marker scan names → Listed marker (d :: scan) names
  | unmarked {d : Declaration} {scan : List Declaration} {names : List String} :
      marker ∉ d.markers → Listed marker scan names → Listed marker (d :: scan) names

/-- A classification has one entry per marker, in the order of the markers, with the marker's
list. -/
def Classifies (scan : List Declaration) (markers : List ItemPath) (c : Classification) : Prop :=
  List.Forall₂ (fun marker e => e.marker = marker ∧ Listed marker scan e.names) markers c.entries

/-- Two different markers end in the same name. -/
def SharesLastSegment (markers : List ItemPath) : Prop :=
  ∃ p ∈ markers, ∃ q ∈ markers, p ≠ q ∧ p.simpleName = q.simpleName

namespace Classification

theorem listed_names (marker : ItemPath) (scan : List Declaration) :
    Listed marker scan ((scan.filter (·.carries marker)).filterMap (·.registration)) := by
  induction scan with
  | nil => exact .nil
  | cons d scan ih =>
      by_cases member : marker ∈ d.markers
      · have hcarries : d.carries marker = true := by
          simpa [Declaration.carries] using member
        cases hname : d.registration with
        | none =>
            simp only [List.filter_cons, hcarries, ↓reduceIte, List.filterMap_cons, hname]
            exact .unnamed hname ih
        | some name =>
            simp only [List.filter_cons, hcarries, ↓reduceIte, List.filterMap_cons, hname]
            exact .on hname member ih
      · have hcarries : d.carries marker = false := by
          simpa [Declaration.carries] using member
        simp only [List.filter_cons, hcarries, Bool.false_eq_true, ↓reduceIte]
        exact .unmarked member ih

theorem classifies_ofDeclarations (scan : List Declaration) (markers : List ItemPath) :
    Classifies scan markers (ofDeclarations scan markers) := by
  induction markers with
  | nil => exact .nil
  | cons marker markers ih => exact .cons ⟨rfl, listed_names marker scan⟩ ih

theorem isEmpty_ofDeclarations (scan : List Declaration) (markers : List ItemPath) :
    (ofDeclarations scan markers).isEmpty = markers.isEmpty := by
  cases markers <;> rfl

/-- The entries of a classification agree on names exactly when no two of its markers end in the
same name. -/
theorem namesAgree_ofDeclarations_iff (scan : List Declaration) (markers : List ItemPath) :
    Emission.NamesAgree (ofDeclarations scan markers).entries ↔ ¬ SharesLastSegment markers := by
  simp only [Emission.NamesAgree, ofDeclarations, List.pairwise_map, ListEntry.bindingName]
  constructor
  · rintro hpair ⟨p, hp, q, hq, hne, hname⟩
    have hflip : markers.Pairwise (flip fun a b => a.simpleName = b.simpleName → a = b) :=
      hpair.imp fun h same => (h same.symm).symm
    exact hne (hpair.forall_of_forall_of_flip (by simp) hflip hp hq hname)
  · intro hnone
    apply List.pairwise_of_forall_mem_list
    intro p hp q hq hname
    by_contra hne
    exact hnone ⟨p, hp, q, hq, hne, hname⟩

end Classification

namespace Emission

/-- What emission makes of the lists of a crate: nothing where none was asked for, an error where
two markers end in the same name, and else the text of the lists. -/
theorem emit_ofDeclarations (s : Emission) (scan : List Declaration) (markers : List ItemPath)
    (hne : markers ≠ []) :
    (SharesLastSegment markers ∧ ∃ name p q,
      s.emit (.ofDeclarations scan markers) = .error (.bindingCollision name p q)) ∨
    (¬ SharesLastSegment markers ∧ ∃ text,
      s.emit (.ofDeclarations scan markers) = .ok (some text)) := by
  have hempty : (Classification.ofDeclarations scan markers).isEmpty = false := by
    rw [Classification.isEmpty_ofDeclarations]
    simpa using hne
  have hcheck : collision? [] (Classification.ofDeclarations scan markers).entries = none ↔
      ¬ SharesLastSegment markers := by
    rw [collision?_nil_eq_none_iff, Classification.namesAgree_ofDeclarations_iff]
  cases found : collision? [] (Classification.ofDeclarations scan markers).entries with
  | none =>
      refine Or.inr ⟨hcheck.mp found,
        join (s.lines (Classification.ofDeclarations scan markers).entries), ?_⟩
      simp only [emit, hempty, Bool.false_eq_true, ↓reduceIte, found]
  | some error =>
      obtain ⟨name, p, q, rfl⟩ := exists_of_collision?_eq_some found
      have hshared : SharesLastSegment markers := by
        by_contra hnone
        simp [hcheck.mpr hnone] at found
      refine Or.inl ⟨hshared, name, p, q, ?_⟩
      simp only [emit, hempty, Bool.false_eq_true, ↓reduceIte, found]

end Emission

namespace Pass

/-- What a stage gives can be computed where its failures cannot be compared. -/
theorem ok_of_toOption {α ε : Type} {x : Except ε α} {a : α} (h : x.toOption = some a) :
    x = .ok a := by
  cases x with
  | error error => simp [Except.toOption] at h
  | ok b => simpa [Except.toOption] using h

theorem exists_ok_of_any {α ε : Type} {x : Except ε α} {test : α → Bool}
    (h : x.toOption.any test = true) : ∃ a, x = .ok a ∧ test a = true := by
  cases x with
  | error error => simp [Except.toOption] at h
  | ok a => exact ⟨a, rfl, by simpa [Except.toOption] using h⟩

section

variable {c : Corpus} {settings : Settings} {markers : List ItemPath}

/-- The table that directives are read with. -/
def firstTable (c : Corpus) (settings : Settings) : SymbolTable :=
  (SymbolTable.ofCorpus c).withExternal [settings.registration, settings.directive]

/-- The requested markers, and the table that attributes are read with. -/
def request (c : Corpus) (settings : Settings) : Except Error (SymbolTable × List ItemPath) :=
  (requestTraced c settings).result

def reportOf (c : Corpus) (settings : Settings) (t : SymbolTable) (markers : List ItemPath) :
    Report :=
  let declarations := Declaration.ofCorpus t settings.registration c
  ⟨markers, declarations, .ofDeclarations declarations markers⟩

theorem request_eq (c : Corpus) (settings : Settings) : request c settings =
    (Directive.markers c (firstTable c settings) settings).map fun markers =>
      ((firstTable c settings).withExternal markers, markers) := by
  have hcollect : (Directive.collect c (firstTable c settings) settings).result =
      Directive.markers c (firstTable c settings) settings := rfl
  rw [request, requestTraced, Traced.result_bind]
  change (Directive.collect c (firstTable c settings) settings >>= _).result = _
  rw [Traced.result_bind, hcollect]
  cases Directive.markers c (firstTable c settings) settings <;> rfl

theorem analyze_eq (c : Corpus) (settings : Settings) : analyze c settings =
    (request c settings).map fun (t, markers) => reportOf c settings t markers := by
  rw [analyze, analyzeTraced, Traced.result_bind, ← request]
  cases request c settings <;> rfl

theorem generate_eq (c : Corpus) (settings : Settings) : generate c settings =
    match request c settings with
    | .error error => .error error
    | .ok (t, markers) =>
      if markers.isEmpty then .ok none
      else
        (Emission.emit ⟨settings.module, settings.container⟩
          (reportOf c settings t markers).classification).map
            fun contents => contents.map fun contents => ⟨settings.fileName, contents⟩ := by
  rw [generate, generateTraced, Traced.result_bind, ← request]
  cases request c settings with
  | error error => rfl
  | ok found =>
      obtain ⟨t, markers⟩ := found
      cases hempty : markers.isEmpty with
      | true => simp only [Except.bind, hempty, if_true]; rfl
      | false =>
          simp only [Except.bind, hempty, Bool.false_eq_true, if_false]
          have hreport : (reportTraced c settings t markers).result =
              .ok (reportOf c settings t markers) := rfl
          rw [Traced.result_bind, hreport]
          change (Emission.write _ _ >>= _).result = _
          rw [Traced.result_bind]
          change (Emission.emit _ _).bind _ = _
          cases Emission.emit ⟨settings.module, settings.container⟩
            (reportOf c settings t markers).classification <;> rfl

theorem request_of_error {error : Error}
    (h : Directive.markers c (firstTable c settings) settings = .error error) :
    request c settings = .error error := by
  simp only [request_eq, h, Except.map]

theorem request_eq_ok_iff {t : SymbolTable} : request c settings = .ok (t, markers) ↔
    Directive.markers c (firstTable c settings) settings = .ok markers ∧
      t = (firstTable c settings).withExternal markers := by
  cases h : Directive.markers c (firstTable c settings) settings with
  | error error => simp [request_of_error h]
  | ok found =>
      simp only [request_eq, h, Except.map, Except.ok.injEq, Prod.mk.injEq]
      constructor
      · rintro ⟨rfl, rfl⟩
        exact ⟨rfl, rfl⟩
      · rintro ⟨rfl, rfl⟩
        exact ⟨rfl, rfl⟩

/-- A pass reports what the scan gives for the markers that the directives name. -/
theorem analyze_eq_ok_iff {report : Report} : analyze c settings = .ok report ↔
    Directive.markers c (firstTable c settings) settings = .ok report.markers ∧
      report = reportOf c settings ((firstTable c settings).withExternal report.markers)
        report.markers := by
  cases h : Directive.markers c (firstTable c settings) settings with
  | error error => simp [analyze_eq, request_of_error h, Except.map]
  | ok found =>
      simp only [analyze_eq, request_eq_ok_iff.mpr ⟨h, rfl⟩, Except.map, Except.ok.injEq]
      constructor
      · rintro rfl
        exact ⟨rfl, rfl⟩
      · rintro ⟨rfl, hreport⟩
        exact hreport.symm

theorem generate_of_error {error : Error}
    (h : Directive.markers c (firstTable c settings) settings = .error error) :
    generate c settings = .error error := by
  simp only [generate_eq, request_of_error h]

/-- What is generated once the directives are read. -/
theorem generate_eq_of_markers
    (h : Directive.markers c (firstTable c settings) settings = .ok markers) :
    generate c settings =
      if markers.isEmpty then .ok none
      else (Emission.emit ⟨settings.module, settings.container⟩
        (reportOf c settings ((firstTable c settings).withExternal markers)
          markers).classification).map
          fun contents => contents.map fun contents => ⟨settings.fileName, contents⟩ := by
  simp only [generate_eq, request_eq_ok_iff.mpr ⟨h, rfl⟩]

/-- Where something or nothing is generated, the directives are read. -/
theorem exists_markers_of_generate {artifact : Option Artifact}
    (h : generate c settings = .ok artifact) :
    ∃ markers, Directive.markers c (firstTable c settings) settings = .ok markers := by
  cases hmarkers : Directive.markers c (firstTable c settings) settings with
  | error error =>
      rw [generate_of_error hmarkers] at h
      cases h
  | ok markers => exact ⟨markers, rfl⟩

end

/-- The functions that a pass finds, with all requested markers known to glob imports. -/
def scanned (c : Corpus) (settings : Settings) (markers : List ItemPath) : List Declaration :=
  Declaration.ofCorpus ((firstTable c settings).withExternal markers) settings.registration c

/-- What generating gives, once the requested markers are known and classified. -/
structure Generates (c : Corpus) (settings : Settings) (markers : List ItemPath)
    (lists : Classification) : Prop where
  /-- No artifact exactly where no list was asked for. -/
  nothing : generate c settings = .ok none ↔ markers = []
  /-- A clash of names exactly where two different markers end in the same one. -/
  clash : (∃ name p q, generate c settings = .error (.bindingCollision name p q)) ↔
    SharesLastSegment markers
  /-- In every other case the text of these lists, under the configured file name. -/
  text : markers ≠ [] → ¬ SharesLastSegment markers →
    ∃ text, Emission.emit ⟨settings.module, settings.container⟩ lists = .ok (some text) ∧
      generate c settings = .ok (some ⟨settings.fileName, text⟩)

theorem generates_of_markers {c : Corpus} {settings : Settings} {markers : List ItemPath}
    (h : Directive.markers c (firstTable c settings) settings = .ok markers) :
    Generates c settings markers (.ofDeclarations (scanned c settings markers) markers) := by
  have hgenerate := generate_eq_of_markers h
  rw [reportOf, ← scanned] at hgenerate
  by_cases hempty : markers = []
  · subst hempty
    have hnothing : generate c settings = .ok none := by simpa using hgenerate
    exact ⟨by simp [hnothing], by simp [hnothing, SharesLastSegment], by simp⟩
  · have hmarkers : markers.isEmpty = false := by simpa using hempty
    simp only [hmarkers, Bool.false_eq_true, ↓reduceIte] at hgenerate
    rcases Emission.emit_ofDeclarations ⟨settings.module, settings.container⟩
        (scanned c settings markers) markers hempty with
      ⟨hshared, name, p, q, hemit⟩ | ⟨hfree, text, hemit⟩
    · have herror : generate c settings = .error (.bindingCollision name p q) := by
        rw [hgenerate, hemit]
        rfl
      exact ⟨by simp [herror, hempty], by simp [herror, hshared],
        fun _ hfree => absurd hshared hfree⟩
    · have hok : generate c settings = .ok (some ⟨settings.fileName, text⟩) := by
        rw [hgenerate, hemit]
        rfl
      exact ⟨by simp [hok, hempty], by simp [hok, hfree], fun _ _ => ⟨text, hemit, hok⟩⟩

/-- Reporting and generating follow one account of a pass, for every crate and all settings. Where
the directives cannot be read both fail with their error. Else the report holds the requested
markers, the functions of the scan and a classification that puts on each marker's list what
belongs there; and generating gives no artifact, a clash of names or the text of that same
classification, each exactly where it should. -/
theorem analyze_and_generate_follow_lists (c : Corpus) (settings : Settings) :
    match Directive.markers c (firstTable c settings) settings with
    | .error error => analyze c settings = .error error ∧ generate c settings = .error error
    | .ok markers => ∃ lists,
        Classifies (scanned c settings markers) markers lists ∧
        analyze c settings = .ok ⟨markers, scanned c settings markers, lists⟩ ∧
        Generates c settings markers lists := by
  cases h : Directive.markers c (firstTable c settings) settings with
  | error error =>
      constructor
      · rw [analyze_eq, request_of_error h]
        rfl
      · exact generate_of_error h
  | ok markers =>
      refine ⟨_, Classification.classifies_ofDeclarations _ markers, ?_, generates_of_markers h⟩
      exact analyze_eq_ok_iff.mpr ⟨h, rfl⟩

end Pass

end MarkerIndex
