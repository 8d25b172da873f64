import MarkerIndex.Crate.Corpus
/-!
The counters of a session while a crate is loaded. They are set once, before the first file;
entering and leaving does not touch them, so that from there on they count the files that were
parsed.
-/

namespace MarkerIndex

namespace Session

theorem replay_cons (s : Session) (event : Event) (events : List Event) :
    s.replay (event :: events) = (event.apply s).replay events := rfl

theorem replay_append (s : Session) (first second : List Event) :
    s.replay (first ++ second) = (s.replay first).replay second :=
  List.foldl_append

@[simp] theorem progress_enterFile (s : Session) (file : FilePath) :
    (s.enterFile file).progress = s.progress := rfl

@[simp] theorem progress_fileDone (s : Session) :
    s.fileDone.progress = ⟨s.progress.processed + 1, s.progress.total⟩ := rfl

@[simp] theorem progress_leave (s : Session) : s.leave.progress = s.progress := by
  unfold leave
  split <;> rfl

end Session

namespace Event

/-- The event sets the counters. -/
def sets : Event → Bool
  | setProgress _ _ => true
  | _ => false

/-- At any time after the counters have been set, no more files are done than there are in all. -/
def KeepsWithin (events : List Event) : Prop :=
  ∀ (s : Session) (before after : List Event), events = before ++ after → before.any sets = true →
    (s.replay before).progress.processed ≤ (s.replay before).progress.total

/-- The counters are set once, to a total of which nothing is done, and from there on so many files
are done. -/
def CountsTo (files total : Nat) (events : List Event) : Prop :=
  ∃ front later, events = front ++ setProgress 0 total :: later ∧ front.any sets = false ∧
    later.any sets = false ∧ later.count fileDone = files

/-- Where the counters are not set, each file that is done is counted. -/
theorem progress_replay (s : Session) {events : List Event} (h : events.any sets = false) :
    (s.replay events).progress =
      ⟨s.progress.processed + events.count fileDone, s.progress.total⟩ := by
  induction events generalizing s with
  | nil => rfl
  | cons event events ih =>
      rw [List.any_cons, Bool.or_eq_false_iff] at h
      rw [Session.replay_cons, ih _ h.2]
      cases event with
      | setProgress processed total => simp [sets] at h
      | fileDone => simp [apply, Nat.add_assoc, Nat.add_comm 1]
      | leave => simp [apply]
      | enterPhase phase => simp [apply, Session.enterPhase]
      | enterFile file => simp [apply]

namespace CountsTo

variable {files total : Nat} {events before after : List Event}

/-- Once the counters are set they show the total, and how many files are done by then. -/
theorem progress_of_prefix (h : CountsTo files total events) (hsplit : events = before ++ after)
    (hset : before.any sets = true) (s : Session) :
    ∃ done ≤ files, (s.replay before).progress = ⟨done, total⟩ := by
  obtain ⟨front, later, hevents, hfront, hlater, rfl⟩ := h
  rw [hevents] at hsplit
  rcases List.append_eq_append_iff.mp hsplit with ⟨inner, rfl, hinner⟩ | ⟨inner, rfl, -⟩
  · cases inner with
    | nil => simp [hfront] at hset
    | cons event inner =>
        obtain ⟨rfl, hrest⟩ := List.cons.inj hinner
        obtain rfl : later = inner ++ after := hrest
        have hbefore : inner.any sets = false := by
          rw [List.any_append, Bool.or_eq_false_iff] at hlater
          exact hlater.1
        refine ⟨inner.count fileDone, by simp, ?_⟩
        rw [Session.replay_append, Session.replay_cons, progress_replay _ hbefore]
        simp [apply, Session.setProgress]
  · rw [List.any_append, hset, Bool.true_or] at hfront
    cases hfront

/-- In the end all files are done. -/
theorem progress_replay (h : CountsTo files total events) (s : Session) :
    (s.replay events).progress = ⟨files, total⟩ := by
  obtain ⟨front, later, rfl, -, hlater, rfl⟩ := h
  rw [Session.replay_append, Session.replay_cons, Event.progress_replay _ hlater]
  simp [apply, Session.setProgress]

theorem keepsWithin_iff (h : CountsTo files total events) : KeepsWithin events ↔ files ≤ total := by
  constructor
  · intro hkeeps
    have hset : events.any sets = true := by
      obtain ⟨front, later, rfl, -⟩ := h
      simp [sets]
    have hend := hkeeps .start events [] (List.append_nil events).symm hset
    rwa [h.progress_replay] at hend
  · intro hle s before after hsplit hset
    obtain ⟨done, hdone, hprogress⟩ := h.progress_of_prefix hsplit hset s
    rw [hprogress]
    exact Nat.le_trans hdone hle

end CountsTo

end Event

namespace Loading

theorem not_sets_events (l : Loading) : l.events.any Event.sets = false := by
  have hfiles (files : List SourceFile) :
      (files.flatMap fun f => Event.inFile f.path [.fileDone]).any Event.sets = false := by
    simp [Event.inFile, Event.sets]
  have hproblem : ((l.problem.map LoadProblem.events).getD []).any Event.sets = false := by
    rcases l.problem with _ | _ | _ | _ <;> rfl
  rw [events, List.any_append, hfiles, hproblem, Bool.or_false]

/-- A loading counts the files that it has loaded, also when it fails. -/
theorem count_events (l : Loading) : l.events.count .fileDone = l.loaded.length := by
  have hfiles (files : List SourceFile) :
      (files.flatMap fun f => Event.inFile f.path [.fileDone]).count .fileDone =
        files.length := by
    induction files with
    | nil => rfl
    | cons f files ih =>
        rw [List.flatMap_cons, List.count_append, ih, List.length_cons, Nat.add_comm]
        rfl
  have hproblem : ((l.problem.map LoadProblem.events).getD []).count .fileDone = 0 := by
    rcases l.problem with _ | _ | _ | _ <;> rfl
  rw [events, List.count_append, hfiles, hproblem, Nat.add_zero]

end Loading

/-- Loading listed texts counts the loaded ones, of all that are listed. -/
theorem SourceTable.countsTo_events {t : SourceTable} {loading : Loading}
    (h : t.load? = some loading) : Event.CountsTo loading.loaded.length t.entries.length t.events :=
  ⟨[], loading.events, by rw [events, loadTraced, h]; rfl, rfl, loading.not_sets_events,
    loading.count_events⟩

end MarkerIndex
