import MarkerIndex.Proofs.Session
import MarkerIndex.Session.Call
/-!
The guards of a session as a stack. A guard is taken for a phase or for a file, and gives back a
whole context. That this takes back no more than the one setting is an invariant: each guard that is
alive holds the context with the settings of the guards that are older. Calls of the library come
back to the guards that they were entered with, so that a run can be read as if they were not there.
-/

namespace MarkerIndex

/-- What a guard was taken for. -/
inductive Setting
  | inPhase (phase : Phase)
  | inFile (file : FilePath)
  deriving DecidableEq

namespace Setting

def apply (c : Context) : Setting → Context
  | inPhase phase => { c with phase := some phase }
  | inFile file => { c with file := some file }

def phase? : Setting → Option Phase
  | inPhase phase => some phase
  | inFile _ => none

def file? : Setting → Option FilePath
  | inPhase _ => none
  | inFile file => some file

end Setting

namespace Context

/-- The context with settings put over it, the newest of which is the first. -/
def overlaid (c : Context) (alive : List Setting) : Context :=
  alive.foldr (fun setting under => setting.apply under) c

/-- What the guards of the settings give back: each the context with the older settings. -/
def snapshots (c : Context) : List Setting → List Context
  | [] => []
  | _ :: older => c.overlaid older :: c.snapshots older

variable (c : Context) (alive : List Setting)

@[simp] theorem overlaid_nil : c.overlaid [] = c := rfl

@[simp] theorem overlaid_cons (setting : Setting) :
    c.overlaid (setting :: alive) = setting.apply (c.overlaid alive) := rfl

/-- The latest phase wins, whatever files were set since. -/
theorem phase_overlaid :
    (c.overlaid alive).phase = (alive.findSome? Setting.phase?).or c.phase := by
  induction alive with
  | nil => rfl
  | cons setting older ih =>
      cases setting <;> simp [Setting.apply, Setting.phase?, List.findSome?_cons, ih]

/-- The latest file wins, whatever phases were set since. -/
theorem file_overlaid : (c.overlaid alive).file = (alive.findSome? Setting.file?).or c.file := by
  induction alive with
  | nil => rfl
  | cons setting older ih =>
      cases setting <;> simp [Setting.apply, Setting.file?, List.findSome?_cons, ih]

end Context

namespace Event

/-- The settings whose guards are alive after an event. No guard can be dropped that is not alive.
-/
def alive? (alive : List Setting) : Event → Option (List Setting)
  | enterPhase phase => some (.inPhase phase :: alive)
  | enterFile file => some (.inFile file :: alive)
  | leave =>
    match alive with
    | [] => none
    | _ :: older => some older
  | setProgress _ _ => some alive
  | fileDone => some alive

/-- The settings whose guards are alive after events, of those that the events take and those
before. -/
def aliveAfter? (alive : List Setting) (events : List Event) : Option (List Setting) :=
  events.foldlM alive? alive

theorem aliveAfter?_append (alive : List Setting) (first second : List Event) :
    aliveAfter? alive (first ++ second) = (aliveAfter? alive first).bind (aliveAfter? · second) :=
  List.foldlM_append

end Event

namespace Session

/-- The guards of the settings were taken since `start` and are alive. The older ones stay as they
were. -/
structure Holds (start s : Session) (alive : List Setting) : Prop where
  context : s.context = start.context.overlaid alive
  guards : s.guards = start.context.snapshots alive ++ start.guards

namespace Holds

variable {start s : Session} {alive later : List Setting}

theorem refl (start : Session) : Holds start start [] := ⟨rfl, rfl⟩

theorem apply (h : Holds start s alive) {event : Event} (halive : event.alive? alive = some later) :
    Holds start (event.apply s) later := by
  cases event with
  | enterPhase phase =>
      obtain rfl := Option.some.inj halive
      constructor <;>
        simp [Event.apply, Session.enterPhase, h.context, h.guards, Setting.apply,
          Context.snapshots]
  | enterFile file =>
      obtain rfl := Option.some.inj halive
      constructor <;>
        simp [Event.apply, Session.enterFile, h.context, h.guards, Setting.apply, Context.snapshots]
  | leave =>
      cases alive with
      | nil => cases halive
      | cons setting older =>
          obtain rfl := Option.some.inj halive
          -- The newest guard holds what the older settings make of the first context.
          have hguards : s.guards =
              start.context.overlaid older :: (start.context.snapshots older ++ start.guards) :=
            h.guards
          constructor <;> simp [Event.apply, Session.leave, hguards]
  | setProgress processed total =>
      obtain rfl := Option.some.inj halive
      exact ⟨h.context, h.guards⟩
  | fileDone =>
      obtain rfl := Option.some.inj halive
      exact ⟨h.context, h.guards⟩

theorem replay (h : Holds start s alive) {events : List Event}
    (halive : Event.aliveAfter? alive events = some later) :
    Holds start (s.replay events) later := by
  induction events generalizing s alive with
  | nil =>
      obtain rfl := Option.some.inj halive
      exact h
  | cons event events ih =>
      obtain ⟨next, hnext, hrest⟩ := Option.bind_eq_some_iff.mp halive
      exact ih (h.apply hnext) hrest

end Holds

end Session

namespace Event

/-- The events drop just the guards that they take, in whatever state they begin. -/
def Balanced (events : List Event) : Prop :=
  ∀ alive, aliveAfter? alive events = some alive

namespace Balanced

variable {events first second : List Event}

theorem nil : Balanced [] := fun _ => rfl

theorem append (hfirst : Balanced first) (hsecond : Balanced second) :
    Balanced (first ++ second) := by
  intro alive
  rw [aliveAfter?_append, hfirst alive]
  exact hsecond alive

theorem flatMap {α : Type} {f : α → List Event} (h : ∀ a, Balanced (f a)) (as : List α) :
    Balanced (as.flatMap f) := by
  induction as with
  | nil => exact nil
  | cons a as ih => exact (h a).append ih

theorem fileDone : Balanced [fileDone] := fun _ => rfl

theorem setProgress (h : Balanced events) (processed total : Nat) :
    Balanced (setProgress processed total :: events) :=
  h

theorem within (h : Balanced events) (phase : Phase) : Balanced (within phase events) := by
  intro alive
  change aliveAfter? (.inPhase phase :: alive) (events ++ [leave]) = some alive
  rw [aliveAfter?_append, h]
  rfl

theorem inFile (h : Balanced events) (file : FilePath) : Balanced (inFile file events) := by
  intro alive
  change aliveAfter? (.inFile file :: alive) (events ++ [leave]) = some alive
  rw [aliveAfter?_append, h]
  rfl

/-- Whoever was entered before, its guards and its context are found again. -/
theorem replay (h : Balanced events) (s : Session) :
    (s.replay events).context = s.context ∧ (s.replay events).guards = s.guards :=
  have hheld := (Session.Holds.refl s).replay (h [])
  ⟨hheld.context, hheld.guards⟩

end Balanced

end Event

open Event (Balanced)

/-- Every file is left before the next one is looked for, also the one that cannot be parsed. -/
theorem Loading.balanced (l : Loading) : Balanced l.events := by
  have hfiles : Balanced (l.loaded.flatMap fun f => Event.inFile f.path [.fileDone]) :=
    .flatMap (fun f : SourceFile => Balanced.fileDone.inFile f.path) _
  have hproblem : Balanced ((l.problem.map LoadProblem.events).getD []) := by
    rcases l.problem with _ | _ | ⟨file, _⟩ | _
    · exact .nil
    · exact .nil
    · exact Balanced.nil.inFile file
    · exact .nil
  exact hfiles.append hproblem

/-- Stages that leave all that they enter can go on from each other. -/
theorem Traced.balanced_bind {α β : Type} {first : Traced α} {next : α → Traced β}
    (hfirst : Balanced first.events) (hnext : ∀ a, Balanced (next a).events) :
    Balanced (first >>= next).events := by
  cases hresult : first.result with
  | error error =>
      rw [bind_of_error hresult]
      exact hfirst
  | ok a =>
      rw [bind_of_ok hresult]
      exact hfirst.append (hnext a)

theorem Traced.balanced_pure {α : Type} (a : α) : Balanced (pure a : Traced α).events :=
  .nil

theorem SourceTable.balanced (t : SourceTable) : Balanced t.events := by
  unfold events loadTraced
  split
  · exact .nil
  · next loading _ => exact loading.balanced.setProgress _ _

theorem SymbolTable.balanced (c : Corpus) : Balanced (build c).events := Balanced.nil.within _

theorem Directive.balanced (c : Corpus) (t : SymbolTable) (settings : Settings) :
    Balanced (collect c t settings).events :=
  (Balanced.flatMap (fun root : SourceFile => Balanced.nil.inFile root.path) _).within _

theorem Declaration.balanced (c : Corpus) (t : SymbolTable) (registration : ItemPath) :
    Balanced (scan c t registration).events :=
  (Balanced.flatMap (fun f : SourceFile => Balanced.nil.inFile f.path) _).within _

theorem Classification.balanced (declarations : List Declaration) (markers : List ItemPath) :
    Balanced (sort declarations markers).events :=
  Balanced.nil.within _

theorem Emission.balanced (s : Emission) (c : Classification) : Balanced (s.write c).events :=
  Balanced.nil.within _

namespace Pass

open Traced (balanced_bind balanced_pure)

variable (c : Corpus) (settings : Settings)

theorem balanced_request : Balanced (requestTraced c settings).events :=
  balanced_bind (SymbolTable.balanced c) fun _ =>
    balanced_bind (Directive.balanced c _ settings) fun _ => balanced_pure _

theorem balanced_report (t : SymbolTable) (markers : List ItemPath) :
    Balanced (reportTraced c settings t markers).events :=
  balanced_bind (Declaration.balanced c t _) fun _ =>
    balanced_bind (Classification.balanced _ markers) fun _ => balanced_pure _

theorem balanced_analyze : Balanced (analyzeTraced c settings).events :=
  balanced_bind (balanced_request c settings) fun _ => balanced_report c settings _ _

theorem balanced_generate : Balanced (generateTraced c settings).events := by
  refine balanced_bind (balanced_request c settings) fun (t, markers) => ?_
  dsimp only
  split
  · exact balanced_pure _
  · exact balanced_bind (balanced_report c settings t markers) fun report =>
      balanced_bind (Emission.balanced _ report.classification) fun _ => balanced_pure _

end Pass

namespace Disk

variable (d : Disk) (project : FilePath) (settings : Settings)

theorem balanced_discover : Balanced (d.discover project settings).events := by
  have hsearching : Balanced (Event.within .discovery []) := Balanced.nil.within _
  unfold discover
  split
  · exact hsearching
  · next sources _ =>
      exact hsearching.append (((d.load sources).balanced.setProgress _ _).within _)

theorem balanced_generate : Balanced (d.generateTraced project settings).events :=
  Traced.balanced_bind (d.balanced_discover project settings) fun c =>
    Pass.balanced_generate c settings

theorem balanced_report : Balanced (d.reportTraced project settings).events :=
  Traced.balanced_bind (d.balanced_discover project settings) fun c =>
    Pass.balanced_analyze c settings

theorem balanced_build (package out : FilePath) : Balanced (d.build package out).events := by
  unfold build generateInto
  cases Config.settings d package none with
  | error error => exact .nil
  | ok settings =>
      have hmade := d.balanced_generate package settings
      dsimp only
      cases (d.generateTraced package settings).result <;> exact hmade

theorem balanced_runGenerate (request : GenerateRequest) :
    Balanced (d.runGenerate request).events := by
  unfold runGenerate
  cases d.commandSettings request.project request.config with
  | error failure => exact .nil
  | ok settings =>
      have hmade := d.balanced_generate request.project settings
      dsimp only
      cases (d.generateTraced request.project settings).result with
      | error error => exact hmade
      | ok artifact =>
          dsimp only
          split
          · exact hmade
          · split
            · unfold runCheck
              split <;> exact hmade
            · unfold runDelivery
              dsimp only
              split <;> exact hmade

theorem balanced_runScan (colors : Bool) (request : ScanRequest) :
    Balanced (d.runScan colors request).events := by
  unfold runScan
  cases d.commandSettings request.project request.config with
  | error failure => exact .nil
  | ok settings =>
      have hmade := d.balanced_report request.project settings
      dsimp only
      cases (d.reportTraced request.project settings).result <;> exact hmade

theorem balanced_runSetUp (directory : FilePath) (force : Bool) :
    Balanced (d.runSetUp directory force).events := by
  unfold runSetUp
  dsimp only
  split
  · exact .nil
  · split <;> exact .nil

end Disk

theorem Command.balanced (d : Disk) (colors : Bool) (command : Command) :
    Balanced (command.run d colors).events := by
  cases command with
  | generate request => exact d.balanced_runGenerate request
  | scan request => exact d.balanced_runScan colors request
  | setUp directory force => exact d.balanced_runSetUp directory force

/-- A call leaves all that it enters, on success and on every failure. -/
theorem Call.balanced (call : Call) : Balanced call.events := by
  cases call with
  | load sources => exact (SourceTable.ofList sources).balanced
  | discover d project settings => exact d.balanced_discover project settings
  | table c => exact SymbolTable.balanced c
  | markers c t settings => exact Directive.balanced c t settings
  | declarations c t registration => exact Declaration.balanced c t registration
  | classify declarations markers => exact Classification.balanced declarations markers
  | emit s c => exact s.balanced c
  | analyze c settings => exact Pass.balanced_analyze c settings
  | generate c settings => exact Pass.balanced_generate c settings
  | generateProject d project settings => exact d.balanced_generate project settings
  | resolve d project config => exact .nil
  | deliver d p generated => exact .nil
  | verify d p generated => exact .nil
  | build d package out => exact d.balanced_build package out
  | run d colors command => exact command.balanced d colors

/-- What a user of the library does: takes a guard, drops the newest one or counts, or makes a call.
-/
inductive Act
  | own (event : Event)
  | making (call : Call)

namespace Act

def events : Act → List Event
  | own event => [event]
  | making call => call.events

def own? : Act → Option Event
  | own event => some event
  | making _ => none

/-- Calls aside, the user drops no guard that the user has not taken. -/
def DropsOwn (acts : List Act) : Prop :=
  (Event.aliveAfter? [] (acts.filterMap own?)).isSome = true

instance (acts : List Act) : Decidable (DropsOwn acts) :=
  inferInstanceAs (Decidable (_ = true))

/-- After whole acts, only guards that the user has taken are alive. -/
theorem aliveAfter?_events (alive : List Setting) (acts : List Act) :
    Event.aliveAfter? alive (acts.flatMap events) =
      Event.aliveAfter? alive (acts.filterMap own?) := by
  induction acts generalizing alive with
  | nil => rfl
  | cons act acts ih =>
      rw [List.flatMap_cons, Event.aliveAfter?_append]
      cases act with
      | own event =>
          change (Event.aliveAfter? alive [event]).bind _ =
            Event.aliveAfter? alive ([event] ++ acts.filterMap own?)
          rw [Event.aliveAfter?_append]
          exact congrArg _ (funext ih)
      | making call =>
          change (Event.aliveAfter? alive call.events).bind _ = _
          rw [call.balanced alive]
          exact ih alive

end Act

namespace Session

/-- At every point of a run, also amidst a call, the context is the first one with the settings of
the guards that are alive put over it. Their latest phase and their latest file count, and where no
guard is alive the first context is back. Between acts, only the guards that the user has taken are
alive: every call returns to the context and the guards that it was entered with. -/
theorem context_of_run (start : Session) {acts : List Act} (hdrops : Act.DropsOwn acts) :
    (∀ before after, acts.flatMap Act.events = before ++ after →
      ∃ alive, Event.aliveAfter? [] before = some alive ∧
        (start.replay before).context = start.context.overlaid alive ∧
        (start.replay before).context.phase =
          (alive.findSome? Setting.phase?).or start.context.phase ∧
        (start.replay before).context.file =
          (alive.findSome? Setting.file?).or start.context.file ∧
        (alive = [] → (start.replay before).context = start.context)) ∧
    (∀ done later, acts = done ++ later →
      ∃ alive, Event.aliveAfter? [] (done.filterMap Act.own?) = some alive ∧
        (start.replay (done.flatMap Act.events)).context = start.context.overlaid alive) ∧
    ∀ (call : Call) (s : Session), (s.replay call.events).context = s.context ∧
      (s.replay call.events).guards = s.guards := by
  obtain ⟨last, hlast⟩ := Option.isSome_iff_exists.mp hdrops
  rw [← Act.aliveAfter?_events] at hlast
  have hpoint {before after : List Event} (hsplit : acts.flatMap Act.events = before ++ after) :
      ∃ alive, Event.aliveAfter? [] before = some alive ∧
        start.Holds (start.replay before) alive := by
    rw [hsplit, Event.aliveAfter?_append] at hlast
    obtain ⟨alive, halive, -⟩ := Option.bind_eq_some_iff.mp hlast
    exact ⟨alive, halive, (Holds.refl start).replay halive⟩
  refine ⟨?_, ?_, fun call => call.balanced.replay⟩
  · intro before after hsplit
    obtain ⟨alive, halive, hheld⟩ := hpoint hsplit
    refine ⟨alive, halive, hheld.context, ?_, ?_, ?_⟩
    · rw [hheld.context, Context.phase_overlaid]
    · rw [hheld.context, Context.file_overlaid]
    · rintro rfl
      exact hheld.context
  · rintro done later rfl
    obtain ⟨alive, halive, hheld⟩ := hpoint List.flatMap_append
    exact ⟨alive, Act.aliveAfter?_events [] done ▸ halive, hheld.context⟩

/-- Sources that cannot be parsed are loaded inside a phase and a file. -/
def interrupted : List Act :=
  [.own (.enterPhase .emission), .own (.enterFile ⟨"a.rs"⟩),
    .making (.load [(⟨"lib.rs"⟩, "fn (")]), .own (.setProgress 0 3), .own .leave, .own .leave]

/-- While the file that cannot be parsed is read, it covers the file of the user, and the phase
stays. After the failure the file of the user is back, and in the end the first context. -/
theorem context_of_interrupted :
    Act.DropsOwn interrupted ∧
    (Corpus.ofSources [(⟨"lib.rs"⟩, "fn (")]).toOption.isNone = true ∧
    ∀ start : Session,
      (∃ before after, interrupted.flatMap Act.events = before ++ after ∧
        (start.replay before).context = ⟨some .emission, some ⟨"lib.rs"⟩⟩) ∧
      (start.replay ((interrupted.take 3).flatMap Act.events)).context =
        ⟨some .emission, some ⟨"a.rs"⟩⟩ ∧
      (start.replay (interrupted.flatMap Act.events)).context = start.context := by
  have hdrops : Act.DropsOwn interrupted := by decide
  refine ⟨hdrops, by decide +kernel, fun start => ?_⟩
  have hevents : interrupted.flatMap Act.events =
      [.enterPhase .emission, .enterFile ⟨"a.rs"⟩, .setProgress 0 1, .enterFile ⟨"lib.rs"⟩] ++
        [.leave, .setProgress 0 3, .leave, .leave] := by decide +kernel
  obtain ⟨hpoints, hacts, -⟩ := context_of_run start hdrops
  refine ⟨⟨_, _, hevents, ?_⟩, ?_, ?_⟩
  · obtain ⟨alive, halive, hcontext, -⟩ := hpoints _ _ hevents
    obtain rfl := Option.some.inj halive
    exact hcontext
  · obtain ⟨alive, halive, hcontext⟩ := hacts _ _ (List.take_append_drop 3 interrupted).symm
    obtain rfl := Option.some.inj halive
    exact hcontext
  · obtain ⟨alive, halive, hcontext⟩ := hacts _ _ (List.append_nil interrupted).symm
    obtain rfl := Option.some.inj halive
    exact hcontext

end Session

end MarkerIndex
