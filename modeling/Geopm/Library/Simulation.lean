import Geopm.Library.Run

/-! Machines that reply to each action, and when two of them cannot be told apart by their replies. -/

namespace Simulation

variable {State Concrete Abstract Action Reply : Type*}

/-- The replies of a machine to actions that follow one another. -/
def replies (perform : State → Action → Reply × State) : State → List Action → List Reply
  | _, [] => []
  | state, action :: rest => (perform state action).1 :: replies perform (perform state action).2 rest

/-- Where the machine is after the actions. -/
def after (perform : State → Action → Reply × State) (state : State) (actions : List Action) : State :=
  Transition.run (fun state action => (perform state action).2) state actions

/-- A relation between two machines that reply alike in states that are related, and keep to it. -/
def Simulates (concrete : Concrete → Action → Reply × Concrete) (abstract : Abstract → Action → Reply × Abstract)
    (related : Concrete → Abstract → Prop) : Prop :=
  ∀ low high action, related low high →
    (concrete low action).1 = (abstract high action).1 ∧ related (concrete low action).2 (abstract high action).2

variable {concrete : Concrete → Action → Reply × Concrete} {abstract : Abstract → Action → Reply × Abstract}
  {related : Concrete → Abstract → Prop} {low : Concrete} {high : Abstract} {actions : List Action}

theorem Simulates.after (simulates : Simulates concrete abstract related) (start : related low high) :
    related (after concrete low actions) (after abstract high actions) := by
  induction actions generalizing low high with
  | nil => exact start
  | cons action rest ih => exact ih (simulates low high action start).2

theorem Simulates.replies (simulates : Simulates concrete abstract related) (start : related low high) :
    replies concrete low actions = replies abstract high actions := by
  induction actions generalizing low high with
  | nil => rfl
  | cons action rest ih =>
      obtain ⟨same, next⟩ := simulates low high action start
      rw [Simulation.replies, Simulation.replies, same, ih next]

end Simulation
