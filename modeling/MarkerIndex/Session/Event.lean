import MarkerIndex.Error
import MarkerIndex.Session.Context
/-!
What a pass does to a session, as lists of events. A stage gives its events together with its
result. It enters its phase first and leaves it on every way out, and where it fails what was to
come after it is not entered.
-/

namespace MarkerIndex

inductive Event
  | enterPhase (phase : Phase)
  | enterFile (file : FilePath)
  | leave
  | setProgress (processed total : Nat)
  | fileDone
  deriving DecidableEq

namespace Event

def apply (s : Session) : Event → Session
  | enterPhase phase => s.enterPhase phase
  | enterFile file => s.enterFile file
  | leave => s.leave
  | setProgress processed total => s.setProgress processed total
  | fileDone => s.fileDone

/-- Events inside a phase. -/
def within (phase : Phase) (events : List Event) : List Event :=
  enterPhase phase :: (events ++ [leave])

/-- Events inside a file. -/
def inFile (file : FilePath) (events : List Event) : List Event :=
  enterFile file :: (events ++ [leave])

end Event

namespace Session

def replay (s : Session) (events : List Event) : Session :=
  events.foldl Event.apply s

end Session

/-- What a stage comes to, with the events on the way. -/
structure Traced (α : Type) where
  result : Except Error α
  events : List Event

namespace Traced

variable {α β : Type}

/-- Goes on from a result. -/
def andThen (first : Traced α) (next : α → Traced β) : Traced β :=
  match first.result with
  | .error error => ⟨.error error, first.events⟩
  | .ok a =>
    let later := next a
    ⟨later.result, first.events ++ later.events⟩

instance : Monad Traced where
  pure a := ⟨.ok a, []⟩
  bind := andThen

/-- A stage that has a phase of its own. -/
def within (phase : Phase) (result : Except Error α) (events : List Event) : Traced α :=
  ⟨result, Event.within phase events⟩

theorem bind_of_error {first : Traced α} {error : Error} (h : first.result = .error error)
    (next : α → Traced β) : first >>= next = ⟨.error error, first.events⟩ := by
  change first.andThen next = _
  simp only [andThen, h]

theorem bind_of_ok {first : Traced α} {a : α} (h : first.result = .ok a)
    (next : α → Traced β) :
    first >>= next = ⟨(next a).result, first.events ++ (next a).events⟩ := by
  change first.andThen next = _
  simp only [andThen, h]

theorem result_bind (first : Traced α) (next : α → Traced β) :
    (first >>= next).result = first.result.bind fun a => (next a).result := by
  cases hresult : first.result with
  | error error => rw [bind_of_error hresult]; rfl
  | ok a => rw [bind_of_ok hresult]; rfl

end Traced

end MarkerIndex
