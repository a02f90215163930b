import Geopm.Library.Number

namespace Geopm

/-! Where `Controller::walk_down` of the root gets its policy from. -/

inductive PolicySource (Values : Type) where
  /-- A file, whose policy is read once. -/
  | file (policy : Values)
  /-- An endpoint that returns the same policy each time. -/
  | endpoint (policy : Values)
deriving Repr

/-- The comparison of the policy with the last one. -/
def samePolicy (first second : List Number) : Bool :=
  (first.zip second).all fun pair => pair.1.isNan && pair.2.isNan || pair.1.eq pair.2

namespace PolicySource

variable {Values : Type}

/-- The policy that a source gives. -/
def policy : PolicySource Values → Values
  | .file policy => policy
  | .endpoint policy => policy

/-- Whether the policy is to be sent, and the last policy then. A policy from an endpoint is sent
when it differs from the last one. -/
def read (same : Values → Values → Bool) (source : PolicySource Values) (lastPolicy : Values) :
    Bool × Values :=
  match source with
  | .file _ => (true, lastPolicy)
  | .endpoint policy => if same policy lastPolicy then (false, lastPolicy) else (true, policy)

end PolicySource

end Geopm
