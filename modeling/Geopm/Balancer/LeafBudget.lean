import Geopm.Balancer.PackageLimits
import Geopm.Library.Sharing
import Mathlib.Data.List.Forall2

namespace Outcome

/-- A loop that collects a result for each item and its index relates them in pairs. -/
theorem forall₂_zipIdx {Error Item Found : Type*} {body : Item × Nat → Except Error Found} {items : List Item}
    {results : List Found} {start : Nat} {relation : Item → Found → Prop}
    (done : (items.zipIdx start).mapM body = .ok results)
    (each : ∀ item ∈ items, ∀ index result, body (item, index) = .ok result → relation item result) :
    List.Forall₂ relation items results := by
  induction items generalizing start results with
  | nil =>
      cases done
      exact .nil
  | cons item rest ih =>
      rw [List.forall_mem_cons] at each
      rw [List.zipIdx_cons, List.mapM_cons] at done
      cases first : body (item, start) with
      | error reason =>
          rw [first] at done
          cases done
      | ok result =>
          cases others : (rest.zipIdx (start + 1)).mapM body with
          | error reason =>
              rw [first, others] at done
              cases done
          | ok collected =>
              rw [first, others] at done
              cases done
              exact .cons (each.1 start result first) (ih others each.2)

end Outcome

namespace Geopm

/-! The sums of the caps and the limits of a leaf, and what its steps do to them. -/

namespace LeafRole

variable (settings : PowerSettings) (total : ℚ)

def capSum (role : LeafRole) : ℚ := (role.packages.map Package.cap).sum

def limitSum (role : LeafRole) : ℚ := (role.packages.map Package.limit).sum

/-- How far the limits are below the maximum. -/
def roomSum (role : LeafRole) : ℚ := (role.packages.map (Package.room settings)).sum

/-- Each limit has been requested since it was changed last. -/
def Requested (role : LeafRole) : Prop := ∀ package ∈ role.packages, package.Requested settings

/-- What holds of a leaf that has had a policy. -/
structure Kept (role : LeafRole) : Prop where
  sound : ∀ package ∈ role.packages, package.Sound settings
  settled : ∀ package ∈ role.packages, package.isStepComplete = true → package.Settled settings
  reports : BalancerStep.ofCount role.stepCount = .reduceLimit → ∀ package ∈ role.packages,
    package.isStepComplete = true → package.Reports settings
  capped : role.stepCount = 0 → role.Capped total

/-- What `adjust_platform` does once it has taken the policy. -/
def requests (clock : Nat → ℚ) (role : LeafRole) : LeafRole :=
  { role with
    packages := (role.packages.mapIdx fun index package => package.requestLimit settings (clock index)).map Prod.snd }

/-- The leaf goes on to the next step. -/
def advance (role : LeafRole) : LeafRole :=
  { role with stepCount := role.stepCount + 1, packages := role.packages.map (Package.setComplete · false) }

variable {settings total} {role next entered : LeafRole} {inPolicy : Policy} {numNode : Nat} {clock : Nat → ℚ}
  {isSingleNode adjusts isComplete : Bool} {measured : Nat → Measured} {sample : Sample} {slack : ℚ}

theorem roomSum_eq : role.roomSum settings = role.packages.length * settings.maxPkgPowerSetting - role.limitSum := by
  rw [roomSum, limitSum]
  induction role.packages with
  | nil => simp
  | cons head tail ih =>
      rw [List.map_cons, List.sum_cons, ih, List.map_cons, List.sum_cons, List.length_cons, Package.room]
      push_cast
      ring

/-- What a leaf of a tree does with a policy: it takes a limit, it stays in its step or it goes on to the next one. -/
theorem adjustPlatform_cases (done : role.adjustPlatform settings false numNode inPolicy clock = .ok (adjusts, next)) :
    inPolicy.powerPackageLimitTotal.eq (.value 0) = false ∧
        next = ({ role with policy := inPolicy } : LeafRole).resetCaps.requests settings clock ∨
      inPolicy.powerPackageLimitTotal.eq (.value 0) = true ∧ inPolicy.stepCount = .value role.stepCount ∧
        next = ({ role with policy := inPolicy } : LeafRole).requests settings clock ∨
      inPolicy.powerPackageLimitTotal.eq (.value 0) = true ∧ inPolicy.stepCount = .value (role.stepCount + 1) ∧
        next = (({ role with policy := inPolicy } : LeafRole).advance.enterStep settings inPolicy).requests settings
          clock := by
  rw [adjustPlatform] at done
  obtain ⟨entered, taken, rest⟩ := Transition.ok_of_bind done
  cases rest
  rw [if_neg Bool.false_ne_true, takePolicy] at taken
  cases given : inPolicy.powerPackageLimitTotal.eq (.value 0) with
  | false =>
      rw [given] at taken
      cases taken
      exact .inl ⟨rfl, rfl⟩
  | true =>
      rw [given, Bool.not_true, if_neg Bool.false_ne_true] at taken
      cases same : inPolicy.stepCount.eq (.value role.stepCount) with
      | true =>
          rw [same] at taken
          cases taken
          exact .inr (.inl ⟨rfl, Number.of_eq same, rfl⟩)
      | false =>
          simp only [same, Bool.not_false, if_true] at taken
          split at taken
          · cases taken
          · next following =>
              cases taken
              refine .inr (.inr ⟨rfl, ?_, rfl⟩)
              simpa using Number.of_eq (by simpa using following)

theorem capSum_of_capped (some_package : role.packages ≠ []) (capped : role.Capped total) : role.capSum = total := by
  have length : (role.packages.length : ℚ) ≠ 0 := by
    rw [Nat.cast_ne_zero]
    exact mt List.length_eq_zero_iff.mp some_package
  have each : role.packages.map Package.cap = role.packages.map fun _ => total / role.packages.length := by
    apply List.map_congr_left
    intro package member
    rw [Package.cap, capped package member, Number.getD]
  rw [capSum, each, List.map_const', List.sum_replicate, nsmul_eq_mul]
  field_simp

/-- Where a value is the same in pairs so is its sum. -/
theorem sum_eq_of_forall₂ {value : Package → ℚ} {relation : Package → Package → Prop} {packages others : List Package}
    (pairs : List.Forall₂ relation packages others)
    (same : ∀ package other, package ∈ packages → relation package other → value other = value package) :
    (others.map value).sum = (packages.map value).sum := by
  induction pairs with
  | nil => rfl
  | cons first _ ih =>
      rw [List.map_cons, List.map_cons, List.sum_cons, List.sum_cons, same _ _ (List.mem_cons_self ..) first,
        ih fun package other member => same package other (List.mem_cons_of_mem _ member)]

/-- In pairs each of the second is related to one of the first. -/
theorem exists_of_forall₂ {relation : Package → Package → Prop} {packages others : List Package} {other : Package}
    (pairs : List.Forall₂ relation packages others) (member : other ∈ others) :
    ∃ package ∈ packages, relation package other := by
  obtain ⟨index, inside, rfl⟩ := List.getElem_of_mem member
  have before : index < packages.length := pairs.length_eq ▸ inside
  exact ⟨packages[index], List.getElem_mem before, pairs.get before inside⟩

theorem requests_pairs (sound : ∀ package ∈ role.packages, package.Sound settings) :
    List.Forall₂ (Package.Requests settings) role.packages (role.requests settings clock).packages := by
  rw [List.forall₂_iff_get]
  refine ⟨by simp [requests], fun index inside _ => ?_⟩
  have requested := @Package.requestLimit_requests settings _ (clock index) (sound _ (List.getElem_mem inside))
  simpa [requests] using requested

@[simp] theorem requests_length : (role.requests settings clock).packages.length = role.packages.length := by
  simp [requests]

/-- A request leaves the caps, and the limits that are settled. -/
theorem Kept.requests (kept : role.Kept settings total) :
    (role.requests settings clock).Kept settings total ∧ (role.requests settings clock).Requested settings ∧
      (role.requests settings clock).capSum = role.capSum ∧
      (role.areStepsComplete = true → (role.requests settings clock).limitSum = role.limitSum) := by
  have pairs := @requests_pairs settings role clock kept.sound
  refine ⟨⟨?_, ?_, ?_, ?_⟩, ?_, ?_, ?_⟩
  · intro next member
    obtain ⟨package, _, requested⟩ := exists_of_forall₂ pairs member
    exact requested.sound
  · intro next member complete
    obtain ⟨package, _, requested⟩ := exists_of_forall₂ pairs member
    exact requested.requested.settled
  · intro reduces next member complete
    obtain ⟨package, among, requested⟩ := exists_of_forall₂ pairs member
    rw [requested.isStepComplete] at complete
    have reported := kept.reports reduces package among complete
    have limit := requested.limit (kept.settled package among complete)
    refine ⟨?_, ?_⟩
    · rw [requested.powerSlack, requested.cap, limit, reported.powerSlack]
    · rw [requested.powerHeadroom, Package.room, limit, reported.powerHeadroom, Package.room]
  · intro start next member
    obtain ⟨package, among, requested⟩ := exists_of_forall₂ pairs member
    have capped := kept.capped start package among
    rw [(kept.sound package among).powerCap] at capped
    rw [requested.sound.powerCap, requested.cap, capped, pairs.length_eq]
  · intro next member
    obtain ⟨package, _, requested⟩ := exists_of_forall₂ pairs member
    exact requested.requested
  · exact sum_eq_of_forall₂ pairs fun package next _ requested => requested.cap
  · intro complete
    rw [areStepsComplete, List.all_eq_true] at complete
    exact sum_eq_of_forall₂ pairs fun package next member requested =>
      requested.limit (kept.settled package member (complete package member))

/-- What a sample leaves of a package in a step. -/
def SamplesIn (settings : PowerSettings) (step : BalancerStep) (package next : Package) : Prop :=
  package.Samples settings next ∧ (step = .reduceLimit → package.isStepComplete = false →
    next.isStepComplete = true → next.Reports settings)

theorem sampleStep_pairs {packages : List Package} (sound : ∀ package ∈ role.packages, package.Sound settings)
    (requested : role.Requested settings) (done : role.sampleStep settings measured = .ok packages) :
    List.Forall₂ (SamplesIn settings (BalancerStep.ofCount role.stepCount)) role.packages packages := by
  rw [sampleStep] at done
  cases step : BalancerStep.ofCount role.stepCount with
  | sendDownLimit =>
      rw [step] at done
      cases done
      rw [List.forall₂_same]
      intro package among
      refine ⟨⟨sound package among, rfl, fun complete => ⟨complete, rfl, rfl, rfl⟩, fun _ => ?_⟩, ?_⟩
      · exact (requested package among).settled
      · intro reduces
        cases reduces
  | measureRuntime =>
      rw [step] at done
      refine Outcome.forall₂_zipIdx done fun package among index next measures => ⟨?_, fun reduces => by cases reduces⟩
      exact Package.measureRuntime_samples (sound package among) (requested package among).settled measures
  | reduceLimit =>
      rw [step] at done
      refine Outcome.forall₂_zipIdx done fun package among index next reduces => ?_
      obtain ⟨samples, reports⟩ := Package.reduceLimit_samples (sound package among) (requested package among) reduces
      exact ⟨samples, fun _ => reports⟩

theorem samplePlatform_cases
    (done : role.samplePlatform settings isSingleNode measured = .ok (isComplete, sample, next)) :
    role.sampleStep settings measured = .ok next.packages ∧ next.stepCount = role.stepCount ∧
      isComplete = next.areStepsComplete ∧ sample = next.sample := by
  rw [samplePlatform] at done
  cases sampled : role.sampleStep settings measured with
  | error reason =>
      rw [sampled] at done
      cases done
  | ok packages =>
      rw [sampled] at done
      cases done
      exact ⟨rfl, rfl, rfl, rfl⟩

/-- A sample leaves the caps, and the limits of a leaf that has completed its step. -/
theorem Kept.sampled (kept : role.Kept settings total) (requested : role.Requested settings)
    (done : role.samplePlatform settings isSingleNode measured = .ok (isComplete, sample, next)) :
    next.Kept settings total ∧ next.capSum = role.capSum ∧ next.packages.length = role.packages.length ∧
      (role.areStepsComplete = true → next.limitSum = role.limitSum) := by
  obtain ⟨sampled, step, _, _⟩ := samplePlatform_cases done
  have pairs := sampleStep_pairs kept.sound requested sampled
  refine ⟨⟨?_, ?_, ?_, ?_⟩, ?_, pairs.length_eq.symm, ?_⟩
  · intro next member
    obtain ⟨package, _, samples, _⟩ := exists_of_forall₂ pairs member
    exact samples.sound
  · intro next member complete
    obtain ⟨package, _, samples, _⟩ := exists_of_forall₂ pairs member
    exact samples.settled complete
  · intro reduces next member complete
    rw [step] at reduces
    obtain ⟨package, among, samples, reports⟩ := exists_of_forall₂ pairs member
    cases before : package.isStepComplete with
    | false => exact reports reduces before complete
    | true =>
        obtain ⟨_, limit, slack, headroom⟩ := samples.complete before
        have reported := kept.reports reduces package among before
        refine ⟨?_, ?_⟩
        · rw [slack, samples.cap, limit, reported.powerSlack]
        · rw [headroom, Package.room, limit, reported.powerHeadroom, Package.room]
  · intro start next member
    obtain ⟨package, among, samples, _⟩ := exists_of_forall₂ pairs member
    have capped := kept.capped (step.symm.trans start) package among
    rw [(kept.sound package among).powerCap] at capped
    rw [samples.sound.powerCap, samples.cap, capped, pairs.length_eq]
  · exact sum_eq_of_forall₂ pairs fun package next _ samples => samples.1.cap
  · intro complete
    rw [areStepsComplete, List.all_eq_true] at complete
    exact sum_eq_of_forall₂ pairs fun package next member samples =>
      (samples.1.complete (complete package member)).2.1

/-- The sum of numbers that are all there. -/
theorem foldl_add {value : Package → Number} {rational : Package → ℚ} {packages : List Package} {start : ℚ}
    (each : ∀ package ∈ packages, value package = .value (rational package)) :
    packages.foldl (fun sum package => sum + value package) (.value start) =
      .value (start + (packages.map rational).sum) := by
  induction packages generalizing start with
  | nil => simp
  | cons head tail ih =>
      rw [List.forall_mem_cons] at each
      rw [List.foldl_cons, each.1, Number.value_add, ih each.2, List.map_cons, List.sum_cons, add_assoc]

/-- A leaf that has completed a step in which limits are lowered says by how much they are. -/
theorem Kept.reported (kept : role.Kept settings total) (reduces : BalancerStep.ofCount role.stepCount = .reduceLimit)
    (complete : role.areStepsComplete = true) :
    role.sample.sumPowerSlack = .value (role.capSum - role.limitSum) ∧
      role.sample.minPowerHeadroom = .value (role.roomSum settings) := by
  rw [areStepsComplete, List.all_eq_true] at complete
  have reports (package : Package) (member : package ∈ role.packages) : package.Reports settings :=
    kept.reports reduces package member (complete package member)
  constructor
  · rw [LeafRole.sample, foldl_add fun package member => (reports package member).powerSlack, zero_add]
    apply congrArg Number.value
    rw [eq_sub_iff_add_eq, capSum, limitSum, ← List.sum_map_add]
    simp only [sub_add_cancel]
  · rw [LeafRole.sample, foldl_add fun package member => (reports package member).powerHeadroom, zero_add, roomSum]

theorem Kept.limitSum_le (kept : role.Kept settings total) : role.limitSum ≤ role.capSum :=
  List.sum_le_sum fun package member => (kept.sound package member).limit_le

theorem Kept.roomSum_nonneg (kept : role.Kept settings total) : 0 ≤ role.roomSum settings := by
  apply List.sum_nonneg
  intro room member
  obtain ⟨package, among, rfl⟩ := List.mem_map.mp member
  have sound := kept.sound package among
  exact sub_nonneg.mpr (sound.limit_le.trans sound.high)

/-- A leaf that is given a total limit. -/
theorem resetCaps_kept (tries : ∀ package ∈ role.packages, package.powerBalancer.Tries settings.minPkgPowerSetting)
    (given : role.policy.powerPackageLimitTotal = .value total) (positive : 0 < settings.minPkgPowerSetting)
    (low : settings.minPkgPowerSetting ≤ total / role.packages.length)
    (high : total / role.packages.length ≤ settings.maxPkgPowerSetting) : role.resetCaps.Kept settings total := by
  have packages : role.resetCaps.packages = role.packages.map fun package =>
      (package.setCap (.value (total / role.packages.length))).setComplete true := by
    simp only [resetCaps, given, numDomain, Number.value_div]
  have step : role.resetCaps.stepCount = 0 := rfl
  have sound : ∀ package ∈ role.resetCaps.packages, package.Sound settings := by
    rw [packages]
    intro package member
    obtain ⟨before, among, rfl⟩ := List.mem_map.mp member
    exact Package.setCap_sound (tries before among) (positive.trans_le low) (.inl low) high
  refine ⟨sound, fun package member _ => ?_, fun reduces => ?_, fun _ => ?_⟩
  · rw [packages] at member
    obtain ⟨before, among, rfl⟩ := List.mem_map.mp member
    exact .inl low
  · rw [step] at reduces
    cases reduces
  · rw [Capped, packages, List.length_map]
    intro package member
    obtain ⟨before, among, rfl⟩ := List.mem_map.mp member
    rfl

theorem foldl_least {packages : List Package} (sound : ∀ package ∈ packages, package.Sound settings) {bound : ℚ} :
    packages.foldl (fun (least : Number) package =>
        least.least (.value settings.maxPkgPowerSetting - package.powerBalancer.powerLimit)) (Number.value bound) =
      .value (Sharing.least bound (packages.map (Package.room settings))) := by
  induction packages generalizing bound with
  | nil => rfl
  | cons head tail ih =>
      rw [List.forall_mem_cons] at sound
      rw [List.foldl_cons, sound.1.powerLimit, Number.value_sub, Number.least_value, ih sound.2]
      rfl

/-- The slack is shared among the rooms of the packages. -/
theorem enterSendDownLimit_eq (sound : ∀ package ∈ role.packages, package.Sound settings)
    (given : inPolicy.powerSlack = .value slack) : role.enterSendDownLimit settings inPolicy =
      { role with
        packages := role.packages.map fun package => (package.setCap (.value (package.limit +
          Sharing.share maxDouble slack (role.packages.map (Package.room settings)) (package.room settings)))).setComplete
            true } := by
  generalize roomsEq : role.packages.map (Package.room settings) = rooms
  have length : (role.packages.length : ℚ) = rooms.length := by rw [← roomsEq, List.length_map]
  have headroom (package : Package) (member : package ∈ role.packages) :
      package.headroom settings (.value (Sharing.even maxDouble slack rooms)) =
        .value (package.room settings - Sharing.even maxDouble slack rooms) := by
    rw [Package.headroom, (sound package member).powerLimit, Number.value_add, Number.value_sub, Package.room, sub_sub]
  have left : role.packages.foldl (fun (total : Number) package => total +
      package.headroom settings (.value (Sharing.even maxDouble slack rooms))) (.value 0) =
        .value (Sharing.left maxDouble slack rooms) := by
    rw [foldl_add headroom, zero_add, Sharing.left, ← roomsEq, List.map_map]
    rfl
  have cap (package : Package) (member : package ∈ role.packages) :
      package.powerBalancer.powerLimit + .value (Sharing.even maxDouble slack rooms) +
          (if (Number.value (Sharing.left maxDouble slack rooms)).eq (.value 0) = true then Number.value 1
            else package.headroom settings (.value (Sharing.even maxDouble slack rooms)) /
              .value (Sharing.left maxDouble slack rooms)) * .value (Sharing.rest maxDouble slack rooms) =
        .value (package.limit + Sharing.share maxDouble slack rooms (package.room settings)) := by
    rw [(sound package member).powerLimit, headroom package member, Sharing.share, Sharing.factor, ← add_assoc]
    simp only [Number.eq_value, decide_eq_true_eq]
    split <;> rfl
  unfold enterSendDownLimit
  simp only [foldl_least sound, given, numDomain, length, roomsEq, Number.value_div, Number.lt_value, decide_eq_true_eq]
  congr 1
  apply List.map_congr_left
  intro package member
  rw [← cap package member]
  by_cases less : slack / rooms.length < Sharing.least maxDouble rooms
  case pos =>
      have even : Sharing.even maxDouble slack rooms = slack / rooms.length := if_pos less
      have rest : Sharing.rest maxDouble slack rooms = 0 := if_pos less
      rw [even] at left
      simp only [less, if_true, even, rest, left]
  case neg =>
      have even : Sharing.even maxDouble slack rooms = Sharing.least maxDouble rooms := if_neg less
      have rest : Sharing.rest maxDouble slack rooms = slack - Sharing.least maxDouble rooms * rooms.length :=
        if_neg less
      rw [even] at left
      simp only [less, if_false, even, rest, left, Number.value_mul, Number.value_sub]

theorem maxDouble_nonneg : 0 ≤ maxDouble :=
  sub_nonneg.mpr (pow_le_pow_right₀ one_le_two (by decide))

/-- A leaf whose limits are settled takes the slack: its caps are more than its limits by all of it. -/
theorem enterSendDownLimit_kept (sound : ∀ package ∈ role.packages, package.Sound settings)
    (settled : ∀ package ∈ role.packages, package.Settled settings) (some_package : role.packages ≠ [])
    (sends : BalancerStep.ofCount role.stepCount = .sendDownLimit) (later : role.stepCount ≠ 0)
    (given : inPolicy.powerSlack = .value slack) (nonneg : 0 ≤ slack) (fits : slack ≤ role.roomSum settings) :
    (role.enterSendDownLimit settings inPolicy).Kept settings total ∧
      (role.enterSendDownLimit settings inPolicy).capSum = role.limitSum + slack := by
  have some_room : role.packages.map (Package.room settings) ≠ [] := mt List.map_eq_nil_iff.mp some_package
  have rooms : ∀ room ∈ role.packages.map (Package.room settings), 0 ≤ room := by
    intro room member
    obtain ⟨package, among, rfl⟩ := List.mem_map.mp member
    exact sub_nonneg.mpr ((sound package among).limit_le.trans (sound package among).high)
  let share := Sharing.share maxDouble slack (role.packages.map (Package.room settings))
  have share_nonneg (package : Package) (member : package ∈ role.packages) : 0 ≤ share (package.room settings) :=
    Sharing.share_nonneg some_room maxDouble_nonneg rooms nonneg (List.mem_map_of_mem member)
  have share_le (package : Package) (member : package ∈ role.packages) :
      share (package.room settings) ≤ package.room settings :=
    Sharing.share_le some_room fits (List.mem_map_of_mem member)
  have low (package : Package) (member : package ∈ role.packages) :
      settings.minPkgPowerSetting ≤ package.limit + share (package.room settings) ∨
        package.actualLimit = .value settings.minPkgPowerSetting :=
    (settled package member).imp_left fun low => low.trans (le_add_of_nonneg_right (share_nonneg package member))
  rw [enterSendDownLimit_eq sound given]
  refine ⟨⟨?_, ?_, fun reduces => ?_, fun start => absurd start later⟩, ?_⟩
  · intro next member
    obtain ⟨package, among, rfl⟩ := List.mem_map.mp member
    have before := sound package among
    have high : package.limit + share (package.room settings) ≤ settings.maxPkgPowerSetting := by
      have inside := share_le package among
      have room : package.room settings = settings.maxPkgPowerSetting - package.limit := rfl
      linarith
    refine Package.setCap_sound before.tries ?_ (low package among) high
    exact add_pos_of_pos_of_nonneg before.positive (share_nonneg package among)
  · intro next member _
    obtain ⟨package, among, rfl⟩ := List.mem_map.mp member
    exact low package among
  · rw [sends] at reduces
    cases reduces
  · rw [capSum, List.map_map]
    change (role.packages.map fun package => package.limit + share (package.room settings)).sum = _
    rw [List.sum_map_add, limitSum]
    congr 1
    have whole := @Sharing.sum_share maxDouble slack _ some_room fits
    rwa [List.map_map] at whole

theorem advance_sums : role.advance.capSum = role.capSum ∧ role.advance.limitSum = role.limitSum ∧
    role.advance.roomSum settings = role.roomSum settings := by
  refine ⟨?_, ?_, ?_⟩
  · rw [capSum, advance, List.map_map]
    rfl
  · rw [limitSum, advance, List.map_map]
    rfl
  · rw [roomSum, advance, List.map_map]
    rfl

/-- A leaf that goes on to the next step, which starts with no package that is complete. -/
theorem Kept.advance (kept : role.Kept settings total) (nonneg : 0 ≤ role.stepCount) :
    role.advance.Kept settings total where
  sound := by
    intro next member
    obtain ⟨package, among, rfl⟩ := List.mem_map.mp member
    have before := kept.sound package among
    exact ⟨before.tries, before.powerCap, before.powerLimit, before.positive, before.limit_le, before.low, before.high⟩
  settled := by
    intro next member complete
    obtain ⟨package, among, rfl⟩ := List.mem_map.mp member
    cases complete
  reports := by
    intro _ next member complete
    obtain ⟨package, among, rfl⟩ := List.mem_map.mp member
    cases complete
  capped := by
    intro start
    have step : role.stepCount + 1 = 0 := start
    omega

theorem Kept.enterReduceLimit (kept : role.Kept settings total) :
    (role.enterReduceLimit inPolicy).Kept settings total ∧
      (role.enterReduceLimit inPolicy).capSum = role.capSum := by
  refine ⟨⟨?_, ?_, ?_, ?_⟩, ?_⟩
  · intro next member
    obtain ⟨package, among, rfl⟩ := List.mem_map.mp member
    have before := kept.sound package among
    have tries := before.tries
    exact ⟨⟨tries.trialDelta, tries.minTrialDelta, tries.small, tries.minSmall⟩, before.powerCap, before.powerLimit,
      before.positive, before.limit_le, before.low, before.high⟩
  · intro next member complete
    obtain ⟨package, among, rfl⟩ := List.mem_map.mp member
    exact kept.settled package among complete
  · intro reduces next member complete
    obtain ⟨package, among, rfl⟩ := List.mem_map.mp member
    have reports := kept.reports reduces package among complete
    exact ⟨reports.powerSlack, reports.powerHeadroom⟩
  · intro start next member
    obtain ⟨package, among, rfl⟩ := List.mem_map.mp member
    have capped := kept.capped start package among
    change package.powerBalancer.powerCap = .value (total / ((role.packages.map _).length : ℚ))
    rwa [List.length_map]
  · rw [capSum, LeafRole.enterReduceLimit, List.map_map]
    rfl

/-- What a step that a leaf has completed leaves as it takes the next one. -/
structure Enters (settings : PowerSettings) (total slack : ℚ) (role entered : LeafRole) : Prop where
  kept : entered.Kept settings total
  stepCount : entered.stepCount = role.stepCount + 1
  length : entered.packages.length = role.packages.length
  sends : BalancerStep.ofCount entered.stepCount = .sendDownLimit → entered.capSum = role.limitSum + slack
  others : BalancerStep.ofCount entered.stepCount ≠ .sendDownLimit →
    entered.capSum = role.capSum ∧ entered.areStepsComplete = false

theorem Kept.enters (kept : role.Kept settings total) (nonneg : 0 ≤ role.stepCount)
    (complete : role.areStepsComplete = true) (some_package : role.packages ≠ [])
    (given : BalancerStep.ofCount (role.stepCount + 1) = .sendDownLimit →
      inPolicy.powerSlack = .value slack ∧ 0 ≤ slack ∧ slack ≤ role.roomSum settings) :
    role.Enters settings total slack (role.advance.enterStep settings inPolicy) := by
  obtain ⟨caps, limits, rooms⟩ := @advance_sums settings role
  have advanced := kept.advance nonneg
  have length : role.advance.packages.length = role.packages.length := by simp [LeafRole.advance]
  have some_next : role.advance.packages ≠ [] := mt List.map_eq_nil_iff.mp some_package
  have step : role.advance.stepCount = role.stepCount + 1 := rfl
  have waits (next : LeafRole) (same : next.packages.map Package.isStepComplete =
      role.advance.packages.map Package.isStepComplete) : next.areStepsComplete = false := by
    rw [areStepsComplete_eq same, areStepsComplete, List.all_eq_false]
    obtain ⟨package, among⟩ := List.exists_mem_of_ne_nil _ some_package
    exact ⟨package.setComplete false, List.mem_map_of_mem among, Bool.false_ne_true⟩
  rw [areStepsComplete, List.all_eq_true] at complete
  rw [enterStep]
  cases entersStep : BalancerStep.ofCount role.advance.stepCount with
  | sendDownLimit =>
      obtain ⟨slackGiven, slackNonneg, fits⟩ := given entersStep
      have settled : ∀ package ∈ role.advance.packages, package.Settled settings := by
        intro next member
        obtain ⟨package, among, rfl⟩ := List.mem_map.mp member
        exact kept.settled package among (complete package among)
      obtain ⟨sent, caps⟩ := @enterSendDownLimit_kept settings total _ inPolicy slack advanced.sound settled some_next
        entersStep (by rw [step]; omega) slackGiven slackNonneg (by rw [rooms]; exact fits)
      exact ⟨sent, rfl, by simp [enterSendDownLimit, length], fun _ => caps.trans (by rw [limits]),
        fun other => absurd entersStep other⟩
  | measureRuntime =>
      refine ⟨advanced, rfl, length, fun sends => ?_, fun _ => ⟨caps, waits _ rfl⟩⟩
      rw [entersStep] at sends
      cases sends
  | reduceLimit =>
      obtain ⟨entered, same⟩ := @Kept.enterReduceLimit settings total _ inPolicy advanced
      refine ⟨entered, rfl, by simp [LeafRole.enterReduceLimit, length], fun sends => ?_, fun _ => ⟨same.trans caps, ?_⟩⟩
      · have reduces : BalancerStep.ofCount role.advance.stepCount = .sendDownLimit := sends
        rw [entersStep] at reduces
        cases reduces
      · refine waits _ ?_
        rw [LeafRole.enterReduceLimit, List.map_map]
        rfl

end LeafRole

end Geopm
