import Geopm.Endpoint.Methods
import Geopm.Library.Simulation

namespace Geopm

/-! What an endpoint and its users see of the shared memory: the last messages, and who is registered. -/

namespace Endpoint

/-- A region for samples without its bytes. -/
structure SampleBox where
  registration : Registration
  message : Message
deriving Repr, DecidableEq

/-- Each region holds the last message that was written to it. A policy is read with nan for what it does not say. -/
def mailbox : Regions Message SampleBox where
  zeroPolicy := .none
  zeroSample := ⟨.none, .none⟩
  writePolicy policy now _ := if policyMax < policy.length then .error .outOfBounds else .ok ⟨policy, now⟩
  readPolicy size now message :=
    if size < message.values.length then .error .doesNotFit
    else .ok (message.values ++ List.replicate (size - message.values.length) .nan, now - message.timestamp)
  writeSample sample now box :=
    if sampleMax < sample.length then .error .outOfBounds else .ok { box with message := ⟨sample, now⟩ }
  readSample size now box :=
    if size < box.message.values.length then .error .outOfBounds
    else if size ≠ box.message.values.length then .error .numSample
    else .ok (box.message.values, now - box.message.timestamp)
  register agentName profileName hostlistPath box :=
    if agentNameMax ≤ agentName.length then .error (.agentTooLong agentName)
    else if profileNameMax ≤ profileName.length then .error (.profileTooLong profileName)
    else .ok { box with
      registration := ⟨cString agentName, cString profileName, (cString hostlistPath).take (hostlistPathMax - 1)⟩ }
  detach box := { box with registration := .none }
  agent box := box.registration.agent
  profileName box := box.registration.profileName
  hostlistPath box := box.registration.hostlistPath

/-- Two calls end with the same exception, or with values that are related. -/
def Alike {Low High : Type} (related : Low → High → Prop) :
    Except EndpointError Low → Except EndpointError High → Prop
  | .ok low, .ok high => related low high
  | .error reason, .error other => reason = other
  | _, _ => False

/-- Two kinds of regions that cannot be told apart by what is done with one of them. -/
structure Simulating {Policy Sample Message Box : Type} (low : Regions Policy Sample) (high : Regions Message Box)
    (policies : Policy → Message → Prop) (samples : Sample → Box → Prop) : Prop where
  zeroPolicy : policies low.zeroPolicy high.zeroPolicy
  zeroSample : samples low.zeroSample high.zeroSample
  writePolicy : ∀ policy now data message, policies data message →
    Alike policies (low.writePolicy policy now data) (high.writePolicy policy now message)
  readPolicy : ∀ size now data message, policies data message →
    low.readPolicy size now data = high.readPolicy size now message
  writeSample : ∀ sample now data box, samples data box →
    Alike samples (low.writeSample sample now data) (high.writeSample sample now box)
  readSample : ∀ size now data box, samples data box → low.readSample size now data = high.readSample size now box
  register : ∀ agentName profileName hostlistPath data box, samples data box →
    Alike samples (low.register agentName profileName hostlistPath data)
      (high.register agentName profileName hostlistPath box)
  detach : ∀ data box, samples data box → samples (low.detach data) (high.detach box)
  agent : ∀ data box, samples data box → low.agent data = high.agent box
  profileName : ∀ data box, samples data box → low.profileName data = high.profileName box
  hostlistPath : ∀ data box, samples data box → low.hostlistPath data = high.hostlistPath box

section

variable {Policy Sample Message Box : Type} {low : Regions Policy Sample} {high : Regions Message Box}
  {policies : Policy → Message → Prop} {samples : Sample → Box → Prop}

/-- The same objects, and regions that are related one by one. -/
structure Represents (policies : Policy → Message → Prop) (samples : Sample → Box → Prop) (low : State Policy Sample)
    (high : State Message Box) : Prop where
  endpoint : low.endpoint = high.endpoint
  users : low.users = high.users
  policies : ∀ shmem, policies (low.policies shmem) (high.policies shmem)
  samples : ∀ shmem, samples (low.samples shmem) (high.samples shmem)
  policyName : low.policyName = high.policyName
  sampleName : low.sampleName = high.sampleName
  numPolicies : low.numPolicies = high.numPolicies
  numSamples : low.numSamples = high.numSamples
  files : low.files = high.files

variable {state : State Policy Sample} {other : State Message Box} {agents : Agents}

namespace Represents

theorem setUser (represents : Represents policies samples state other) (user : Nat) (imp : Option EndpointUserImp) :
    Represents policies samples (state.setUser user imp) (other.setUser user imp) :=
  { represents with users := by rw [State.setUser, State.setUser, represents.users] }

theorem setFile (represents : Represents policies samples state other) (path : List Char) (text : Option (List Char)) :
    Represents policies samples (state.setFile path text) (other.setFile path text) :=
  { represents with files := by rw [State.setFile, State.setFile, represents.files] }

theorem setPolicy (represents : Represents policies samples state other) {shmem : Nat} {data : Policy} {message : Message}
    (related : policies data message) :
    Represents policies samples (state.setPolicy shmem data) (other.setPolicy shmem message) :=
  { represents with
    policies := by
      intro region
      rw [State.setPolicy, State.setPolicy]
      by_cases same : region = shmem
      · simpa [same] using related
      · simpa [same] using represents.policies region }

theorem setSample (represents : Represents policies samples state other) {shmem : Nat} {data : Sample} {box : Box}
    (related : samples data box) :
    Represents policies samples (state.setSample shmem data) (other.setSample shmem box) :=
  { represents with
    samples := by
      intro region
      rw [State.setSample, State.setSample]
      by_cases same : region = shmem
      · simpa [same] using related
      · simpa [same] using represents.samples region }

theorem openPolicy (represents : Represents policies samples state other) : state.openPolicy = other.openPolicy := by
  rw [State.openPolicy, State.openPolicy, represents.endpoint]

theorem openSample (represents : Represents policies samples state other) : state.openSample = other.openSample := by
  rw [State.openSample, State.openSample, represents.endpoint]

theorem attached (represents : Represents policies samples state other) (user : Nat) :
    state.attached user = other.attached user := by
  rw [State.attached, State.attached, represents.users]

/-- A call that changes both states alike. -/
theorem changes (represents : Represents policies samples state other)
    {outcome : Except EndpointError (State Policy Sample)} {result : Except EndpointError (State Message Box)}
    (alike : Alike (Represents policies samples) outcome result) :
    (Endpoint.changes state outcome).1 = (Endpoint.changes other result).1 ∧
      Represents policies samples (Endpoint.changes state outcome).2 (Endpoint.changes other result).2 := by
  cases outcome with
  | error reason =>
      cases result with
      | error other =>
          cases alike
          exact ⟨rfl, represents⟩
      | ok next => exact alike.elim
  | ok next =>
      cases result with
      | error other => exact alike.elim
      | ok message => exact ⟨rfl, alike⟩

theorem reads (represents : Represents policies samples state other) {Value : Type} {reply : Value → Reply}
    {outcome result : Except EndpointError Value} (same : outcome = result) :
    (Endpoint.reads state reply outcome).1 = (Endpoint.reads other reply result).1 ∧
      Represents policies samples (Endpoint.reads state reply outcome).2 (Endpoint.reads other reply result).2 := by
  rw [same]
  cases result with
  | error reason => exact ⟨rfl, represents⟩
  | ok value => exact ⟨rfl, represents⟩

end Represents

theorem Alike.bind {Value Low High : Type} {related : Low → High → Prop} {outcome : Except EndpointError Value}
    {first : Value → Except EndpointError Low} {second : Value → Except EndpointError High}
    (each : ∀ value, Alike related (first value) (second value)) :
    Alike related (outcome.bind first) (outcome.bind second) := by
  cases outcome with
  | error reason => exact rfl
  | ok value => exact each value

/-- What is done with related results of a region. -/
theorem Alike.next {Low High LowNext HighNext : Type} {related : Low → High → Prop}
    {nexts : LowNext → HighNext → Prop} {outcome : Except EndpointError Low} {result : Except EndpointError High}
    {first : Low → LowNext} {second : High → HighNext} (alike : Alike related outcome result)
    (each : ∀ low high, related low high → nexts (first low) (second high)) :
    Alike nexts (outcome.bind fun low => .ok (first low)) (result.bind fun high => .ok (second high)) := by
  cases outcome with
  | error reason =>
      cases result with
      | error other => exact alike
      | ok high => exact alike.elim
  | ok low =>
      cases result with
      | error other => exact alike.elim
      | ok high => exact each low high alike

end

section

variable {Policy Sample Message Box : Type} {low : Regions Policy Sample} {high : Regions Message Box}
  {policies : Policy → Message → Prop} {samples : Sample → Box → Prop} {state : State Policy Sample}
  {other : State Message Box} {agents : Agents}

namespace Simulating

theorem same_createPolicy (simulating : Simulating low high policies samples)
    (represents : Represents policies samples state other) :
    Alike (Represents policies samples) (Endpoint.createPolicy low state) (Endpoint.createPolicy high other) := by
  rw [Endpoint.createPolicy, Endpoint.createPolicy, represents.endpoint, represents.policyName]
  cases other.endpoint.policyShmem with
  | some shmem => exact represents
  | none =>
      by_cases free : other.policyName = none
      · rw [if_pos free, if_pos free, represents.numPolicies]
        exact { represents with
          endpoint := rfl
          policyName := rfl
          numPolicies := rfl
          policies := by
            intro region
            by_cases same : region = other.numPolicies
            · simpa [same] using simulating.zeroPolicy
            · simpa [same] using represents.policies region }
      · rw [if_neg free, if_neg free]
        exact rfl

theorem same_createSample (simulating : Simulating low high policies samples)
    (represents : Represents policies samples state other) :
    Alike (Represents policies samples) (Endpoint.createSample low state) (Endpoint.createSample high other) := by
  rw [Endpoint.createSample, Endpoint.createSample, represents.endpoint, represents.sampleName]
  cases other.endpoint.sampleShmem with
  | some shmem => exact represents
  | none =>
      by_cases free : other.sampleName = none
      · rw [if_pos free, if_pos free, represents.numSamples]
        exact { represents with
          endpoint := rfl
          sampleName := rfl
          numSamples := rfl
          samples := by
            intro region
            by_cases same : region = other.numSamples
            · simpa [same] using simulating.zeroSample
            · simpa [same] using represents.samples region }
      · rw [if_neg free, if_neg free]
        exact rfl

theorem same_clear (simulating : Simulating low high policies samples)
    (represents : Represents policies samples state other) :
    Alike (Represents policies samples) (Endpoint.clear low state) (Endpoint.clear high other) := by
  rw [Endpoint.clear, Endpoint.clear, represents.endpoint]
  cases other.endpoint.policyShmem with
  | none => exact rfl
  | some policyShmem =>
      cases other.endpoint.sampleShmem with
      | none => exact rfl
      | some sampleShmem =>
          exact { (represents.setPolicy simulating.zeroPolicy).setSample simulating.zeroSample with endpoint := rfl }

theorem same_writePolicy (simulating : Simulating low high policies samples)
    (represents : Represents policies samples state other) (policy : List Number) (now : ℚ) :
    Alike (Represents policies samples) (Endpoint.writePolicy low state policy now)
      (Endpoint.writePolicy high other policy now) := by
  rw [Endpoint.writePolicy, Endpoint.writePolicy, represents.openPolicy, represents.endpoint]
  refine Alike.bind fun shmem => ?_
  by_cases size : policy.length ≠ other.endpoint.numPolicy
  · rw [if_pos size, if_pos size]
    exact rfl
  · rw [if_neg size, if_neg size]
    exact (simulating.writePolicy policy now _ _ (represents.policies shmem)).next fun _ _ => represents.setPolicy

theorem same_writeSample (simulating : Simulating low high policies samples)
    (represents : Represents policies samples state other) (user : Nat) (sample : List Number) (now : ℚ) :
    Alike (Represents policies samples) (Endpoint.writeSample low state user sample now)
      (Endpoint.writeSample high other user sample now) := by
  rw [Endpoint.writeSample, Endpoint.writeSample, represents.attached]
  refine Alike.bind fun found => ?_
  obtain ⟨imp, shmem, path⟩ := found
  by_cases size : sample.length ≠ imp.numSample
  · simp only [if_pos size]
    exact rfl
  · simp only [if_neg size]
    exact (simulating.writeSample sample now _ _ (represents.samples shmem)).next fun _ _ => represents.setSample

theorem same_detach (simulating : Simulating low high policies samples)
    (represents : Represents policies samples state other) (user : Nat) :
    Alike (Represents policies samples) (Endpoint.detach low state user) (Endpoint.detach high other user) := by
  rw [Endpoint.detach, Endpoint.detach, represents.attached]
  refine Alike.bind fun found => ?_
  obtain ⟨imp, shmem, path⟩ := found
  exact ((represents.setSample (simulating.detach _ _ (represents.samples shmem))).setFile path none).setUser user none

theorem same_readSample (simulating : Simulating low high policies samples)
    (represents : Represents policies samples state other) (size : Nat) (now : ℚ) :
    Endpoint.readSample low state size now = Endpoint.readSample high other size now := by
  rw [Endpoint.readSample, Endpoint.readSample, represents.openSample, represents.endpoint]
  cases other.openSample with
  | error reason => rfl
  | ok shmem =>
      change (if _ then _ else low.readSample _ _ _) = if _ then _ else high.readSample _ _ _
      rw [simulating.readSample size now _ _ (represents.samples shmem)]

theorem same_readPolicy (simulating : Simulating low high policies samples)
    (represents : Represents policies samples state other) (user size : Nat) (now : ℚ) :
    Endpoint.readPolicy low state user size now = Endpoint.readPolicy high other user size now := by
  rw [Endpoint.readPolicy, Endpoint.readPolicy, represents.attached]
  cases other.attached user with
  | error reason => rfl
  | ok found => exact simulating.readPolicy size now _ _ (represents.policies found.1.policyShmem)

theorem same_getProfileName (simulating : Simulating low high policies samples)
    (represents : Represents policies samples state other) :
    Endpoint.getProfileName low state = Endpoint.getProfileName high other := by
  rw [Endpoint.getProfileName, Endpoint.getProfileName, represents.openSample]
  cases other.openSample with
  | error reason => rfl
  | ok shmem => exact congrArg Except.ok (simulating.profileName _ _ (represents.samples shmem))

theorem same_getHostnames (simulating : Simulating low high policies samples)
    (represents : Represents policies samples state other) :
    Endpoint.getHostnames low state = Endpoint.getHostnames high other := by
  rw [Endpoint.getHostnames, Endpoint.getHostnames, represents.openSample, represents.files]
  cases other.openSample with
  | error reason => rfl
  | ok shmem =>
      have data := represents.samples shmem
      change (if low.agent _ = [] then _ else _) = if high.agent _ = [] then _ else _
      rw [simulating.agent _ _ data, simulating.hostlistPath _ _ data]

/-- Each call ends alike, whatever others have done before it. -/
theorem simulates (simulating : Simulating low high policies samples) (agents : Agents) :
    Simulation.Simulates (perform low agents) (perform high agents) (Represents policies samples) := by
  intro state other call represents
  cases call with
  | createPolicy => exact represents.changes (simulating.same_createPolicy represents)
  | createSample => exact represents.changes (simulating.same_createSample represents)
  | clear => exact represents.changes (simulating.same_clear represents)
  | close =>
      refine ⟨rfl, ?_⟩
      exact { represents with
        endpoint := by rw [perform, close, represents.endpoint]; rfl
        policyName := by rw [perform, close, represents.endpoint, represents.policyName]; rfl
        sampleName := by rw [perform, close, represents.endpoint, represents.sampleName]; rfl }
  | writePolicy policy now => exact represents.changes (simulating.same_writePolicy represents policy now)
  | readSample size now => exact represents.reads (simulating.same_readSample represents size now)
  | getAgent =>
      rw [perform, perform, getAgent, getAgent, represents.openSample]
      cases other.openSample with
      | error reason => exact ⟨rfl, represents⟩
      | ok shmem =>
          have same := simulating.agent _ _ (represents.samples shmem)
          change _ ∧ _
          simp only [bind, Except.bind, same]
          by_cases nobody : high.agent (other.samples shmem) = []
          · rw [if_pos nobody, if_pos nobody]
            exact ⟨rfl, represents⟩
          · rw [if_neg nobody, if_neg nobody]
            cases agents (high.agent (other.samples shmem)) with
            | none => exact ⟨rfl, represents⟩
            | some sizes =>
                obtain ⟨numPolicy, numSample⟩ := sizes
                exact ⟨rfl, { represents with
                  endpoint := congrArg (fun endpoint : EndpointImp => { endpoint with numPolicy, numSample })
                    represents.endpoint }⟩
  | getProfileName => exact represents.reads (simulating.same_getProfileName represents)
  | getHostnames => exact represents.reads (simulating.same_getHostnames represents)
  | attachPolicy user numSample =>
      refine represents.changes ?_
      rw [attachPolicy, attachPolicy, represents.users, represents.policyName]
      cases other.users user with
      | some imp => exact rfl
      | none =>
          cases other.policyName with
          | none => exact rfl
          | some shmem => exact represents.setUser user _
  | attachSample user =>
      rw [perform, perform, attachSample, attachSample, represents.users, represents.sampleName]
      cases other.users user with
      | none => exact ⟨rfl, represents⟩
      | some imp =>
          by_cases attaching : imp.stage = .attaching
          · simp only [if_pos attaching]
            cases other.sampleName with
            | none => exact ⟨rfl, represents.setUser user none⟩
            | some shmem => exact ⟨rfl, represents.setUser user _⟩
          · simp only [if_neg attaching]
            exact ⟨trivial, represents⟩
  | register user agentName profileName hostlistPath hosts =>
      rw [perform, perform, Endpoint.register, Endpoint.register, represents.users]
      cases other.users user with
      | none => exact ⟨rfl, represents⟩
      | some imp =>
          cases stage : imp.stage with
          | attaching => exact ⟨by simp only [stage], by simpa only [stage] using represents⟩
          | attached shmem path => exact ⟨by simp only [stage], by simpa only [stage] using represents⟩
          | registering shmem =>
              have alike := simulating.register agentName profileName hostlistPath _ _ (represents.samples shmem)
              simp only [stage]
              cases first : low.register agentName profileName hostlistPath (state.samples shmem) with
              | error reason =>
                  cases second : high.register agentName profileName hostlistPath (other.samples shmem) with
                  | error other =>
                      rw [first, second] at alike
                      cases alike
                      exact ⟨rfl, represents.setUser user none⟩
                  | ok box =>
                      rw [first, second] at alike
                      exact alike.elim
              | ok data =>
                  cases second : high.register agentName profileName hostlistPath (other.samples shmem) with
                  | error other =>
                      rw [first, second] at alike
                      exact alike.elim
                  | ok box =>
                      rw [first, second] at alike
                      exact ⟨rfl, ((represents.setSample alike).setFile _ _).setUser user _⟩
  | readPolicy user size now => exact represents.reads (simulating.same_readPolicy represents user size now)
  | writeSample user sample now => exact represents.changes (simulating.same_writeSample represents user sample now)
  | detach user => exact represents.changes (simulating.same_detach represents user)

end Simulating

end

/-- The bytes of a region for policies hold the last message. -/
def HoldsPolicy (data : PolicyShmem) (message : Message) : Prop :=
  Holds message data.timestamp data.count policyMax data.values

/-- The bytes of a region for samples hold the last message and the strings of who is registered. -/
structure HoldsSample (data : SampleShmem) (box : SampleBox) : Prop where
  message : Holds box.message data.timestamp data.count sampleMax data.values
  agent : cString data.agent = box.registration.agent
  profileName : cString data.profileName = box.registration.profileName
  hostlistPath : cString data.hostlistPath = box.registration.hostlistPath

theorem cString_detach {buffer : List Char} : cString (nul :: buffer) = [] := by simp [cString, Terminated.upTo]

theorem cString_short {name : List Char} {size : Nat} (short : ¬size ≤ name.length) :
    (cString name).take (size - 1) = cString name := by
  apply List.take_of_length_le
  have few : (cString name).length ≤ name.length := (List.takeWhile_sublist _).length_le
  omega

/-- The shared memory is no more than a mailbox: what a longer message has left behind a shorter one is never read. -/
theorem simulating_mailbox : Simulating shared mailbox HoldsPolicy HoldsSample := by
  constructor
  case zeroPolicy => exact holds_zero
  case zeroSample => exact ⟨holds_zero, cString_replicate, cString_replicate, cString_replicate⟩
  case writePolicy =>
      intro policy now data message holds
      change Alike HoldsPolicy (PolicyShmem.write policy now data) (if _ then _ else _)
      rw [PolicyShmem.write, holds.length]
      by_cases fits : policyMax < policy.length
      · rw [if_pos fits, if_pos fits]
        exact rfl
      · rw [if_neg fits, if_neg fits]
        exact holds.copyTo (holds.length.symm ▸ not_lt.mp fits)
  case readPolicy =>
      intro size now data message holds
      change PolicyShmem.read size now data = if _ then _ else _
      rw [PolicyShmem.read, holds.count, holds.values, holds.timestamp, copyTo, List.drop_replicate]
  case writeSample =>
      intro sample now data box holds
      change Alike HoldsSample (SampleShmem.write sample now data) (if _ then _ else _)
      rw [SampleShmem.write, holds.message.length]
      by_cases fits : sampleMax < sample.length
      · rw [if_pos fits, if_pos fits]
        exact rfl
      · rw [if_neg fits, if_neg fits]
        exact ⟨holds.message.copyTo (holds.message.length.symm ▸ not_lt.mp fits), holds.agent, holds.profileName,
          holds.hostlistPath⟩
  case readSample =>
      intro size now data box holds
      change SampleShmem.read size now data = if _ then _ else _
      rw [SampleShmem.read, holds.message.count, holds.message.values, holds.message.timestamp]
  case register =>
      intro agentName profileName hostlistPath data box holds
      change Alike HoldsSample (SampleShmem.register agentName profileName hostlistPath data) (if _ then _ else _)
      rw [SampleShmem.register]
      by_cases agent : agentNameMax ≤ agentName.length
      · rw [if_pos agent, if_pos agent]
        exact rfl
      · rw [if_neg agent, if_neg agent]
        by_cases profile : profileNameMax ≤ profileName.length
        · rw [if_pos profile, if_pos profile]
          exact rfl
        · rw [if_neg profile, if_neg profile]
          refine ⟨holds.message, ?_, ?_, ?_⟩
          · exact (cString_copyName (by decide)).trans (cString_short agent)
          · exact (cString_copyName (by decide)).trans (cString_short profile)
          · exact cString_copyName (by decide)
  case detach =>
      intro data box holds
      exact ⟨holds.message, cString_detach, cString_detach, cString_detach⟩
  case agent => exact fun data box holds => holds.agent
  case profileName => exact fun data box holds => holds.profileName
  case hostlistPath => exact fun data box holds => holds.hostlistPath

theorem represents_initial : Represents HoldsPolicy HoldsSample (initial shared) (initial mailbox) where
  endpoint := rfl
  users := rfl
  policies := fun _ => simulating_mailbox.zeroPolicy
  samples := fun _ => simulating_mailbox.zeroSample
  policyName := rfl
  sampleName := rfl
  numPolicies := rfl
  numSamples := rfl
  files := rfl

/-- Through the shared memory an endpoint and its users get the same replies as through the mailboxes, in every
order of their calls. -/
theorem replies_mailbox (agents : Agents) (calls : List Call) :
    Simulation.replies (perform shared agents) (initial shared) calls =
      Simulation.replies (perform mailbox agents) (initial mailbox) calls :=
  (simulating_mailbox.simulates agents).replies represents_initial

end Endpoint

end Geopm
