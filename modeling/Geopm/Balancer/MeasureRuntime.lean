import Geopm.Balancer.Leaf
import Geopm.Balancer.Measurements

namespace Geopm

/-! What a leaf reports at the end of the step that measures runtimes. -/

namespace Package

/-- The measurement completes the step of the package. -/
def completes (package : Package) (measured : Measured) : Bool :=
  package.hasNewEpoch measured &&
    (package.powerBalancer.accepted measured.now measured.balancedEpochRuntime).any
      package.powerBalancer.stabilizes

/-- A measurement that completes the step finds the runtime of the package equal to the median of
the window that it ends. -/
def Steady (package : Package) (measured : Measured) : Prop :=
  ∀ runtime ∈ package.powerBalancer.accepted measured.now measured.balancedEpochRuntime,
    package.completes measured = true →
      package.runtime = Agg.median ((package.powerBalancer.nextWindow runtime).map .value)

/-- The package after a call in the step that measures runtimes. -/
def afterMeasure (package : Package) (measured : Measured) : Package :=
  match package.measureRuntime measured with
  | .ok after => after
  | .error _ => package

variable {package : Package} {measured : Measured}

theorem measureRuntime_ok (package : Package) (measured : Measured) :
    package.measureRuntime measured = .ok (package.afterMeasure measured) := by
  have returns : ∃ after, package.measureRuntime measured = .ok after := by
    rw [measureRuntime]
    split
    · cases taken : package.powerBalancer.accepted measured.now measured.balancedEpochRuntime with
      | none =>
          rw [PowerBalancer.isRuntimeStable_dropped taken]
          exact ⟨_, rfl⟩
      | some runtime =>
          obtain ⟨next, stable, _⟩ := PowerBalancer.isRuntimeStable_ok taken
          rw [stable]
          exact ⟨_, rfl⟩
    · exact ⟨_, rfl⟩
  obtain ⟨after, done⟩ := returns
  rw [afterMeasure, done]

/-- A measurement that completes the step leaves the runtime of the package. -/
theorem afterMeasure_completes {runtime : ℚ} (completes : package.completes measured = true)
    (taken : package.powerBalancer.accepted measured.now measured.balancedEpochRuntime = some runtime) :
    (package.afterMeasure measured).isStepComplete = true ∧
      (package.afterMeasure measured).runtime = package.runtime ∧
      (package.afterMeasure measured).powerBalancer.runtimeSample =
        Agg.median ((package.powerBalancer.nextWindow runtime).map .value) := by
  obtain ⟨new, stabilizes⟩ := Bool.and_eq_true_iff.mp completes
  rw [taken, Option.any_some] at stabilizes
  obtain ⟨next, stable, _, _, sample⟩ := PowerBalancer.isRuntimeStable_ok taken
  rw [stabilizes] at stable
  rw [afterMeasure, measureRuntime, if_pos new, stable]
  exact ⟨rfl, rfl, sample⟩

theorem incomplete_of_completes (completes : package.completes measured = true) :
    package.isStepComplete = false ∧ ∃ runtime,
      package.powerBalancer.accepted measured.now measured.balancedEpochRuntime = some runtime := by
  obtain ⟨new, stabilizes⟩ := Bool.and_eq_true_iff.mp completes
  simp only [hasNewEpoch, Bool.and_eq_true, Bool.not_eq_true'] at new
  obtain ⟨runtime, taken, _⟩ := (Option.any_eq_true _ _).mp stabilizes
  exact ⟨new.2, runtime, taken⟩

/-- Otherwise a package that is complete stays as it is, and one that is not does not complete. -/
theorem afterMeasure_continues (continues : package.completes measured = false) :
    (package.afterMeasure measured).isStepComplete = package.isStepComplete ∧
      (package.isStepComplete = true → (package.afterMeasure measured).runtime = package.runtime) := by
  rw [afterMeasure, measureRuntime]
  by_cases new : package.hasNewEpoch measured = true
  · have incomplete : package.isStepComplete = false := by
      simp only [hasNewEpoch, Bool.and_eq_true, Bool.not_eq_true'] at new
      exact new.2
    rw [if_pos new, incomplete]
    rw [completes, new, Bool.true_and] at continues
    cases taken : package.powerBalancer.accepted measured.now measured.balancedEpochRuntime with
    | none =>
        rw [PowerBalancer.isRuntimeStable_dropped taken]
        exact ⟨rfl, fun complete => by cases complete⟩
    | some runtime =>
        rw [taken, Option.any_some] at continues
        obtain ⟨next, stable, _⟩ := PowerBalancer.isRuntimeStable_ok taken
        rw [continues] at stable
        rw [stable]
        exact ⟨rfl, fun complete => by cases complete⟩
  · rw [if_neg new]
    exact ⟨rfl, fun _ => rfl⟩

end Package

namespace LeafRole

variable {settings : PowerSettings} {role : LeafRole} {measured : Nat → Measured}

/-- The leaf measures runtimes. -/
def Measures (role : LeafRole) : Prop := BalancerStep.ofCount role.stepCount = .measureRuntime

instance (role : LeafRole) : Decidable role.Measures := inferInstanceAs (Decidable (_ = _))

theorem sampleStep_measures (measures : role.Measures) : role.sampleStep settings measured =
    .ok (role.packages.mapIdx fun index package => package.afterMeasure (measured index)) := by
  have each : (fun item : Package × Nat => item.1.measureRuntime (measured item.2)) =
      fun item => (pure (item.1.afterMeasure (measured item.2)) : Except BufferError Package) :=
    funext fun item => item.1.measureRuntime_ok (measured item.2)
  rw [sampleStep, measures]
  change (role.packages.zipIdx.mapM fun item => item.1.measureRuntime (measured item.2)) = _
  rw [each, List.mapM_pure, List.mapIdx_eq_zipIdx_map]
  rfl

/-- The runtime that goes up is the largest of the packages. -/
theorem sample_maxEpochRuntime :
    role.sample.maxEpochRuntime = (role.packages.map Package.runtime).foldl Number.most (.value 0) := by
  rw [sample, List.foldl_map]

theorem requestLimit_eq {package : Package} {now : ℚ} :
    (package.requestLimit settings now).2.isStepComplete = package.isStepComplete ∧
      (package.requestLimit settings now).2.runtime = package.runtime := by
  simp only [Package.requestLimit]
  split_ifs <;> exact ⟨rfl, rfl⟩

/-- Only the step that measures runtimes leaves a leaf that measures them. -/
theorem enterStep_measures {inPolicy : Policy} (measures : (role.enterStep settings inPolicy).Measures) :
    role.enterStep settings inPolicy = role := by
  cases step : BalancerStep.ofCount role.stepCount with
  | sendDownLimit =>
      simp only [enterStep, step] at measures
      cases step.symm.trans measures
  | measureRuntime => simp only [enterStep, step]
  | reduceLimit =>
      simp only [enterStep, step] at measures
      cases step.symm.trans measures

/-- A policy that leads to the measurement of runtimes keeps the leaf as it is, or starts the step
of every package. -/
theorem takePolicy_measures {entered : LeafRole} (done : role.takePolicy settings = .ok entered)
    (measures : entered.Measures) :
    entered = role ∨ ∀ package ∈ entered.packages, package.isStepComplete = false := by
  rw [takePolicy] at done
  split at done
  · cases done
    cases measures
  · split at done
    · dsimp only at done
      split at done
      · cases done
      · cases done
        rw [enterStep_measures measures]
        refine .inr fun package member => ?_
        obtain ⟨before, _, rfl⟩ := List.mem_map.mp member
        rfl
    · cases done
      exact .inl rfl

theorem samplePlatform_stepCount {isSingleNode isComplete : Bool} {sample : Sample} {next : LeafRole}
    (done : role.samplePlatform settings isSingleNode measured = .ok (isComplete, sample, next)) :
    next.stepCount = role.stepCount := by
  rw [samplePlatform] at done
  split at done
  · cases done
  · cases done
    rfl

theorem updatePolicy_kept {numNode : Nat} {inPolicy : Policy} :
    (role.updatePolicy numNode inPolicy).packages = role.packages ∧
      (role.updatePolicy numNode inPolicy).stepCount = role.stepCount := by
  simp only [updatePolicy]
  split_ifs <;> exact ⟨rfl, rfl⟩

end LeafRole

/-- A call of the controller, with what the signals say. -/
inductive LeafCall where
  | adjust (inPolicy : Policy) (clock : Nat → ℚ)
  | sample (measured : Nat → Measured)

/-- A leaf with the sample that the balancer of each package had when the package
last completed a step. -/
structure LeafHistory where
  role : LeafRole
  completion : Nat → Number

namespace LeafHistory

variable (settings : PowerSettings) (isSingleNode : Bool) (numNode : Nat)

/-- A leaf with a number of packages. -/
def start (numDomain : Nat) : LeafHistory :=
  { role := { packages := List.replicate numDomain {} }, completion := fun _ => .nan }

/-- The samples at completion, after a call that may have completed packages. -/
def note (before after : List Package) (completion : Nat → Number) (index : Nat) : Number :=
  match before[index]?, after[index]? with
  | some package, some next =>
      if !package.isStepComplete && next.isStepComplete then next.powerBalancer.runtimeSample
      else completion index
  | _, _ => completion index

/-- A call that does not throw. -/
def step (history : LeafHistory) : LeafCall → LeafHistory
  | .adjust inPolicy clock =>
      match history.role.adjustPlatform settings isSingleNode numNode inPolicy clock with
      | .error _ => history
      | .ok (_, role) => { history with role }
  | .sample measured =>
      match history.role.samplePlatform settings isSingleNode measured with
      | .error _ => history
      | .ok (_, _, role) =>
          { role, completion := note history.role.packages role.packages history.completion }

/-- Each package that completes the step has the runtime sample of its balancer,
and when all have completed the largest of these samples is sent. -/
def ReportsMeasured (history : LeafHistory) : LeafCall → Prop
  | .adjust _ _ => True
  | .sample measured => history.role.Measures →
      ∃ isComplete sample role,
        history.role.samplePlatform settings isSingleNode measured = .ok (isComplete, sample, role) ∧
        (∀ (index : Nat) (package next : Package), history.role.packages[index]? = some package →
          role.packages[index]? = some next → package.isStepComplete = false →
          next.isStepComplete = true → next.runtime = next.powerBalancer.runtimeSample) ∧
        (isComplete = true → sample.maxEpochRuntime = (role.packages.mapIdx fun index _ =>
          note history.role.packages role.packages history.completion index).foldl Number.most (.value 0))

/-- Each measurement that completes a package finds the runtime that it leads to. -/
def StaysSteady (history : LeafHistory) : LeafCall → Prop
  | .adjust _ _ => True
  | .sample measured => history.role.Measures →
      ∀ (index : Nat) (package : Package), history.role.packages[index]? = some package →
        package.Steady (measured index)

/-- A package that has completed the step has the sample at its completion. -/
def Invariant (history : LeafHistory) : Prop :=
  history.role.Measures → ∀ (index : Nat) (package : Package),
    history.role.packages[index]? = some package → package.isStepComplete = true → package.runtime = history.completion index

variable {settings isSingleNode numNode} {history : LeafHistory} {call : LeafCall} {calls : List LeafCall}

/-- A call that samples while runtimes are measured. -/
theorem samplePlatform_measures {measured : Nat → Measured} (measures : history.role.Measures) :
    ∃ isComplete role, history.role.samplePlatform settings isSingleNode measured =
        .ok (isComplete, role.sample, role) ∧
      role.stepCount = history.role.stepCount ∧
      role.packages = history.role.packages.mapIdx
        (fun index package => package.afterMeasure (measured index)) ∧
      (isComplete = true → ∀ package ∈ role.packages, package.isStepComplete = true) := by
  let sampled : LeafRole := { history.role with
    packages := history.role.packages.mapIdx fun index package => package.afterMeasure (measured index) }
  let policy : Policy :=
    if isSingleNode && sampled.areStepsComplete then
      { history.role.policy with
        maxEpochRuntime := sampled.sample.maxEpochRuntime
        powerSlack := sampled.sample.sumPowerSlack.least sampled.sample.minPowerHeadroom }
    else history.role.policy
  rw [LeafRole.samplePlatform, LeafRole.sampleStep_measures measures]
  refine ⟨sampled.areStepsComplete, { sampled with policy }, rfl, rfl, rfl, ?_⟩
  intro complete package member
  exact List.all_eq_true.mp complete package member

/-- The sample at completion is that of a package that completes now, or the one from before. -/
theorem note_eq {before : List Package} {completion : Nat → Number} {index : Nat} {package : Package}
    {measured : Nat → Measured} (found : before[index]? = some package) :
    note before (before.mapIdx fun index package => package.afterMeasure (measured index)) completion index =
      if package.completes (measured index) then
        (package.afterMeasure (measured index)).powerBalancer.runtimeSample
      else completion index := by
  have next : (before.mapIdx fun index package => package.afterMeasure (measured index))[index]? =
      some (package.afterMeasure (measured index)) := by
    rw [List.getElem?_mapIdx, found, Option.map_some]
  simp only [note, found, next]
  cases completes : package.completes (measured index) with
  | true =>
      obtain ⟨incomplete, runtime, taken⟩ := Package.incomplete_of_completes completes
      simp only [incomplete, (Package.afterMeasure_completes completes taken).1, Bool.not_false,
        Bool.and_self, if_true]
  | false =>
      have same := (Package.afterMeasure_continues completes).1
      rw [same]
      simp

/-- A package that is complete after a measurement has the sample at completion, if this holds
of a package that completes now. -/
theorem Invariant.runtime_eq (invariant : history.Invariant) {measured : Nat → Measured} {index : Nat}
    {package : Package} (measures : history.role.Measures)
    (found : history.role.packages[index]? = some package)
    (now : package.completes (measured index) = true → (package.afterMeasure (measured index)).runtime =
      (package.afterMeasure (measured index)).powerBalancer.runtimeSample)
    (complete : (package.afterMeasure (measured index)).isStepComplete = true) :
    (package.afterMeasure (measured index)).runtime =
      note history.role.packages (history.role.packages.mapIdx fun index package =>
        package.afterMeasure (measured index)) history.completion index := by
  rw [note_eq found]
  cases completes : package.completes (measured index) with
  | true => rw [if_pos rfl, now completes]
  | false =>
      obtain ⟨same, kept⟩ := Package.afterMeasure_continues completes
      have before := same.symm.trans complete
      rw [if_neg Bool.false_ne_true, kept before, invariant measures index package found before]

/-- The calls report what is measured exactly if the runtimes are steady. -/
theorem Invariant.reports_iff (invariant : history.Invariant) :
    history.ReportsMeasured settings isSingleNode call ↔ history.StaysSteady call := by
  cases call with
  | adjust inPolicy clock => rfl
  | sample measured =>
      refine forall_congr' fun measures => ?_
      obtain ⟨isComplete, role, sampled, _, packages, all⟩ :=
        @samplePlatform_measures settings isSingleNode history measured measures
      constructor
      · rintro ⟨_, _, _, again, each, _⟩ index package found runtime taken completes
        cases sampled.symm.trans again
        obtain ⟨complete, kept, sample⟩ := Package.afterMeasure_completes completes taken
        have next : role.packages[index]? = some (package.afterMeasure (measured index)) := by
          rw [packages, List.getElem?_mapIdx, found, Option.map_some]
        have incomplete := (Package.incomplete_of_completes completes).1
        rw [← kept, each index package _ found next incomplete complete, sample]
      · intro steady
        have now : ∀ (index : Nat) (package : Package), history.role.packages[index]? = some package →
            package.completes (measured index) = true → (package.afterMeasure (measured index)).runtime =
              (package.afterMeasure (measured index)).powerBalancer.runtimeSample := by
          intro index package found completes
          obtain ⟨_, runtime, taken⟩ := Package.incomplete_of_completes completes
          obtain ⟨_, kept, sample⟩ := Package.afterMeasure_completes completes taken
          rw [kept, sample, steady index package found runtime taken completes]
        refine ⟨isComplete, role.sample, role, sampled, ?_, ?_⟩
        · intro index package next found reached incomplete complete
          rw [packages, List.getElem?_mapIdx, found, Option.map_some] at reached
          cases reached
          apply now index package found
          by_contra continues
          have same := (Package.afterMeasure_continues (Bool.eq_false_iff.mpr continues)).1
          rw [complete, incomplete] at same
          cases same
        · intro finished
          have runtimes : role.packages.map Package.runtime = role.packages.mapIdx fun index _ =>
              note history.role.packages role.packages history.completion index := by
            apply List.ext_getElem?
            intro index
            rw [List.getElem?_map, List.getElem?_mapIdx]
            cases reached : role.packages[index]? with
            | none => rfl
            | some next =>
                have complete := all finished next (List.mem_of_getElem? reached)
                rw [packages, List.getElem?_mapIdx] at reached
                obtain ⟨package, found, rfl⟩ := Option.map_eq_some_iff.mp reached
                rw [Option.map_some, Option.map_some, packages]
                exact congrArg some (invariant.runtime_eq measures found (now index package found) complete)
          rw [LeafRole.sample_maxEpochRuntime, runtimes]

/-- A leaf that measures runtimes after `adjust_platform` did so before, or has no package that is
complete. -/
theorem measures_of_adjustPlatform {role next : LeafRole} {inPolicy : Policy} {clock : Nat → ℚ}
    {adjusts : Bool} (done : role.adjustPlatform settings isSingleNode numNode inPolicy clock =
      .ok (adjusts, next)) (measures : next.Measures) {index : Nat} {package : Package}
    (found : next.packages[index]? = some package) (complete : package.isStepComplete = true) :
    role.Measures ∧ ∃ before, role.packages[index]? = some before ∧ before.isStepComplete = true ∧
      before.runtime = package.runtime := by
  obtain ⟨entered, taken, rest⟩ := Transition.ok_of_bind done
  cases rest
  rw [List.getElem?_map, List.getElem?_mapIdx, Option.map_map] at found
  obtain ⟨before, previous, rfl⟩ := Option.map_eq_some_iff.mp found
  obtain ⟨sameStep, sameRuntime⟩ := @LeafRole.requestLimit_eq settings before (clock index)
  have finished : before.isStepComplete = true := sameStep.symm.trans complete
  cases LeafRole.takePolicy_measures taken measures with
  | inl same =>
      have received : entered.packages = role.packages ∧ entered.stepCount = role.stepCount := by
        rw [same]
        split
        · exact LeafRole.updatePolicy_kept
        · exact ⟨rfl, rfl⟩
      refine ⟨?_, before, received.1 ▸ previous, finished, sameRuntime.symm⟩
      rw [LeafRole.Measures, ← received.2]
      exact measures
  | inr started =>
      rw [started before (List.mem_of_getElem? previous)] at finished
      cases finished

theorem Invariant.step (invariant : history.Invariant)
    (reports : history.ReportsMeasured settings isSingleNode call) :
    (history.step settings isSingleNode numNode call).Invariant := by
  cases call with
  | adjust inPolicy clock =>
      rw [LeafHistory.step]
      split
      · exact invariant
      · next adjusts next done =>
          intro measures index package found complete
          obtain ⟨before, previous, known, finished, same⟩ :=
            measures_of_adjustPlatform done measures found complete
          rw [← same]
          exact invariant before index previous known finished
  | sample measured =>
      rw [LeafHistory.step]
      split
      · exact invariant
      · next isComplete sample role done =>
          intro measures index next reached complete
          have measuring : history.role.Measures := by
            rw [LeafRole.Measures, ← LeafRole.samplePlatform_stepCount done]
            exact measures
          obtain ⟨_, _, sampled, _, packages, _⟩ :=
            @samplePlatform_measures settings isSingleNode history measured measuring
          cases done.symm.trans sampled
          obtain ⟨_, _, _, again, each, _⟩ := reports measuring
          cases done.symm.trans again
          rw [packages, List.getElem?_mapIdx] at reached
          obtain ⟨package, found, rfl⟩ := Option.map_eq_some_iff.mp reached
          rw [packages]
          refine invariant.runtime_eq measuring found (fun completes => ?_) complete
          have next : role.packages[index]? = some (package.afterMeasure (measured index)) := by
            rw [packages, List.getElem?_mapIdx, found, Option.map_some]
          exact each index package _ found next (Package.incomplete_of_completes completes).1 complete

theorem invariant_start (numDomain : Nat) : (start numDomain).Invariant := by
  intro measures
  cases measures

/-- A leaf reports the runtime sample of each package in every call exactly if each
measurement that completes a package leaves the median as it is. -/
theorem reports_measured_iff (numDomain : Nat) :
    Transition.Permitted (step settings isSingleNode numNode) (ReportsMeasured settings isSingleNode)
        (start numDomain) calls ↔
      Transition.Permitted (step settings isSingleNode numNode) StaysSteady (start numDomain) calls :=
  Transition.permitted_congr (fun _ _ (invariant : Invariant _) reports => invariant.step reports)
    (fun _ _ invariant => invariant.reports_iff) (invariant_start numDomain)

/-- What the signals say when an epoch of this many seconds has ended. -/
def epochOf (runtime : Nat) : Nat → Measured :=
  fun _ => ⟨runtime + 1, .value runtime, .value 0, .value 0, runtime⟩

/-- A leaf with one package has measured epochs of one to eight seconds. -/
def measuring : List LeafCall :=
  .adjust ⟨.value 100, .value 0, .value 0, .value 0⟩ (fun _ => 0) ::
    .adjust ⟨.value 0, .value 1, .value 0, .value 0⟩ (fun _ => 0) ::
      (List.range' 1 8).map fun runtime => .sample (epochOf runtime)

/-- The ninth epoch changes the median. -/
theorem not_reports_measured_ninth :
    ¬ Transition.Permitted (step ⟨50, 200, 150⟩ false 2) (ReportsMeasured ⟨50, 200, 150⟩ false) (start 1)
      (measuring ++ [.sample (epochOf 9)]) := by
  intro permitted
  have last := ((Transition.permitted_concat _).mp permitted).2
  have measures : (Transition.run (step ⟨50, 200, 150⟩ false 2) (start 1) measuring).role.Measures := by
    decide +kernel
  obtain ⟨_, _, role, done, each, _⟩ := last measures
  have before : (Transition.run (step ⟨50, 200, 150⟩ false 2) (start 1) measuring).role.packages.map
      Package.isStepComplete = [false] := by
    decide +kernel
  have after : (Transition.run (step ⟨50, 200, 150⟩ false 2) (start 1)
      (measuring ++ [.sample (epochOf 9)])).role.packages.map (fun package =>
        (package.isStepComplete, package.runtime, package.powerBalancer.runtimeSample)) =
      [(true, .value (9 / 2), .value 5)] := by
    decide +kernel
  rw [Transition.run_concat, step, done] at after
  obtain ⟨package, one, incomplete⟩ := List.map_eq_singleton_iff.mp before
  obtain ⟨next, other, final⟩ := List.map_eq_singleton_iff.mp after
  obtain ⟨complete, runtime, sample⟩ : next.isStepComplete = true ∧ next.runtime = .value (9 / 2) ∧
      next.powerBalancer.runtimeSample = .value 5 := by simpa using final
  have same := each 0 package next (by rw [one]; rfl) (by rw [other]; rfl) incomplete complete
  rw [runtime, sample] at same
  revert same
  decide +kernel

end LeafHistory

end Geopm
