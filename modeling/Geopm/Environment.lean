import Geopm.Json
import Geopm.Library.Assoc
import Geopm.Library.Run

namespace Geopm

/-! `EnvironmentImp`: the values of the GEOPM variables, from two files and from the environment of the user. -/

inductive EnvironmentError where
  /-- "EnvironmentImp::parse_environment_file(): detected a malformed json config file: " and what the parser says -/
  | malformed (err : String)
  /-- "EnvironmentImp::parse_environment_file: environment key " and the name " is unexpected" -/
  | unexpectedKey (varName : String)
  /-- "EnvironmentImp::parse_environment_file: value for " and the name " expected to be a string" -/
  | notString (varName : String)
deriving Repr, DecidableEq

/-- What a process is given: its files, the parser for them, the environment of its user and `geteuid`. -/
structure Host where
  /-- `read_file`, unless it throws -/
  readFile : String → Option String
  /-- `Json::parse`, which sets an error text -/
  parse : String → Json × String
  /-- the items of an object are a map -/
  distinct : ∀ text items err, parse text = (.object items, err) → (items.map Prod.fst).Nodup
  getenv : String → Option String
  euid : Nat

/-- A warning on the error output. -/
structure Overridden where
  varName : String
  userValue : String
  overrideValue : String
deriving Repr, DecidableEq

structure EnvironmentImp where
  nameValueMap : List (String × String)
  userDefinedNames : List String
deriving Repr, DecidableEq

namespace EnvironmentImp

def getAllVars : List String :=
  ["GEOPM_CTL", "GEOPM_REPORT", "GEOPM_REPORT_SIGNALS", "GEOPM_COMM", "GEOPM_POLICY", "GEOPM_ENDPOINT", "GEOPM_AGENT",
    "GEOPM_SHMKEY", "GEOPM_TRACE", "GEOPM_TRACE_SIGNALS", "GEOPM_TRACE_PROFILE", "GEOPM_TRACE_ENDPOINT_POLICY",
    "GEOPM_PLUGIN_PATH", "GEOPM_TIMEOUT", "GEOPM_DEBUG_ATTACH", "GEOPM_PROFILE", "GEOPM_FREQUENCY_MAP",
    "GEOPM_MAX_FAN_OUT", "GEOPM_OMPT_DISABLE", "GEOPM_RECORD_FILTER"]

/-- The values that `m_name_value_map` starts with. -/
def builtIn (euid : Nat) : List (String × String) :=
  [("GEOPM_COMM", "MPIComm"), ("GEOPM_AGENT", "monitor"), ("GEOPM_SHMKEY", "/geopm-shm-" ++ toString euid),
    ("GEOPM_MAX_FAN_OUT", "16"), ("GEOPM_TIMEOUT", "30"), ("GEOPM_DEBUG_ATTACH", "-1")]

def isSet (environment : EnvironmentImp) (envVar : String) : Bool :=
  (Assoc.lookup envVar environment.nameValueMap).isSome

def lookup (environment : EnvironmentImp) (envVar : String) : String :=
  (Assoc.lookup envVar environment.nameValueMap).getD ""

def endpoint (environment : EnvironmentImp) : String := environment.lookup "GEOPM_ENDPOINT"

/-- The body of the loop of `parse_environment`. -/
def parseVariable (getenv : String → Option String) (environment : EnvironmentImp) (envVar : String) :
    EnvironmentImp :=
  match getenv envVar with
  | none => environment
  | some value =>
      ⟨Assoc.assign envVar value environment.nameValueMap, environment.userDefinedNames ++ [envVar]⟩

def parseEnvironment (getenv : String → Option String) (environment : EnvironmentImp) : EnvironmentImp :=
  getAllVars.foldl (parseVariable getenv) environment

/-- The body of the loop of `parse_environment_file`. -/
def parseItem (allNames userDefinedNames : List String) (parsed : List (String × String) × List Overridden)
    (item : String × Json) : Except EnvironmentError (List (String × String) × List Overridden) :=
  let (varName, value) := item
  if varName ∉ allNames then .error (.unexpectedKey varName)
  else if value.type ≠ .string then .error (.notString varName)
  else
    let userValue := (Assoc.lookup varName parsed.1).getD ""
    .ok (Assoc.assign varName value.stringValue parsed.1,
      if varName ∈ userDefinedNames then parsed.2 ++ [⟨varName, userValue, value.stringValue⟩] else parsed.2)

/-- `parse_environment_file`: the values with those of the file, and the warnings. -/
def parseEnvironmentFile (host : Host) (settingsPath : String) (allNames userDefinedNames : List String)
    (nameValueMap : List (String × String)) : Except EnvironmentError (List (String × String) × List Overridden) :=
  match host.readFile settingsPath with
  | none => .ok (nameValueMap, [])
  | some jsonStr =>
      let (jsonRoot, err) := host.parse jsonStr
      if err ≠ "" ∨ jsonRoot.type ≠ .object then .error (.malformed err)
      else jsonRoot.objectItems.foldlM (parseItem allNames userDefinedNames) (nameValueMap, [])

/-- What the constructor does between the two files. -/
def mergeUser (getenv : String → Option String) (nameValueMap : List (String × String)) : EnvironmentImp :=
  let environment : EnvironmentImp := ⟨nameValueMap, []⟩
  let defaultEndpoint := environment.endpoint
  let haveDefaultEndpoint := environment.isSet "GEOPM_ENDPOINT"
  let environment : EnvironmentImp :=
    if haveDefaultEndpoint then { environment with nameValueMap := Assoc.erase "GEOPM_ENDPOINT" nameValueMap }
    else environment
  let environment := environment.parseEnvironment getenv
  if haveDefaultEndpoint ∧ ¬ environment.isSet "GEOPM_ENDPOINT" ∧ ¬ environment.isSet "GEOPM_POLICY" then
    { environment with nameValueMap := Assoc.assign "GEOPM_ENDPOINT" defaultEndpoint environment.nameValueMap }
  else environment

/-- The constructor. -/
def new (host : Host) (defaultConfigPath overrideConfigPath : String) :
    Except EnvironmentError (EnvironmentImp × List Overridden) := do
  let (defaults, early) ← parseEnvironmentFile host defaultConfigPath getAllVars [] (builtIn host.euid)
  let environment := mergeUser host.getenv defaults
  let (nameValueMap, warnings) ← parseEnvironmentFile host overrideConfigPath getAllVars
    environment.userDefinedNames environment.nameValueMap
  .ok ({ environment with nameValueMap }, early ++ warnings)

/-- Values of GEOPM variables, as a file may give them. -/
structure Settings where
  entries : List (String × String)
  distinct : (entries.map Prod.fst).Nodup
  known : ∀ entry ∈ entries, entry.1 ∈ getAllVars

/-- The value of a variable. -/
def Settings.value (settings : Settings) (name : String) : Option String := Assoc.lookup name settings.entries

/-- The file has these settings. One that cannot be read has none. -/
def Settings.Reads (settings : Settings) (host : Host) (path : String) : Prop :=
  match host.readFile path with
  | none => settings.entries = []
  | some text => host.parse text = (.object (settings.entries.map fun entry => (entry.1, .string entry.2)), "")

/-- The value of a variable by the order of precedence: the override, the user's value, the default, unless it is that
of an endpoint and the user gives a policy. -/
def resolved (default user override : String → Option String) (name : String) : Option String :=
  (override name).or ((user name).or
    (if name = "GEOPM_ENDPOINT" ∧ (user "GEOPM_POLICY").isSome then none else default name))

/-- Each variable has the value that is resolved. -/
def Precedes (environment : EnvironmentImp) (default user override : String → Option String) : Prop :=
  ∀ name ∈ getAllVars, environment.isSet name = (resolved default user override name).isSome ∧
    environment.lookup name = (resolved default user override name).getD ""

/-- The values before those of the user: those of the default file, and those that are built in. -/
def Settings.defaults (settings : Settings) (euid : Nat) (name : String) : Option String :=
  (settings.value name).or (Assoc.lookup name (builtIn euid))

variable {host : Host} {path defaultPath overridePath name : String} {settings default override : Settings}
  {allNames userDefinedNames names : List String} {nameValueMap : List (String × String)} {warnings : List Overridden}
  {entries : List (String × String)} {environment : EnvironmentImp} {getenv : String → Option String}

/-- The warnings for the entries of a file: those whose variables the user gives. -/
def overriddenBy (userDefinedNames : List String) (nameValueMap entries : List (String × String)) : List Overridden :=
  (entries.filter fun entry => entry.1 ∈ userDefinedNames).map fun entry =>
    ⟨entry.1, (Assoc.lookup entry.1 nameValueMap).getD "", entry.2⟩

theorem parseItem_string {value : String} (known : name ∈ allNames) :
    parseItem allNames userDefinedNames (nameValueMap, warnings) (name, .string value) =
      .ok (Assoc.assign name value nameValueMap,
        if name ∈ userDefinedNames then warnings ++ [⟨name, (Assoc.lookup name nameValueMap).getD "", value⟩]
        else warnings) := by
  rw [parseItem, if_neg (not_not.mpr known)]
  rfl

theorem parseItem_ok {parsed next : List (String × String) × List Overridden} {item : String × Json}
    (done : parseItem allNames userDefinedNames parsed item = .ok next) :
    item.1 ∈ allNames ∧ ∃ value, item.2 = .string value := by
  obtain ⟨varName, value⟩ := item
  by_cases known : varName ∈ allNames
  · refine ⟨known, ?_⟩
    cases value with
    | string value => exact ⟨value, rfl⟩
    | null | number | bool | array | object => simp [parseItem, known, Json.type] at done
  · simp [parseItem, known] at done

theorem foldlM_parseItem (distinct : (entries.map Prod.fst).Nodup) (known : ∀ entry ∈ entries, entry.1 ∈ allNames) :
    (entries.map fun entry => (entry.1, Json.string entry.2)).foldlM (parseItem allNames userDefinedNames)
      (nameValueMap, warnings) =
        .ok (Assoc.assignAll entries nameValueMap, warnings ++ overriddenBy userDefinedNames nameValueMap entries) := by
  induction entries generalizing nameValueMap warnings with
  | nil => simp [Assoc.assignAll, overriddenBy, pure, Except.pure]
  | cons head rest ih =>
      rw [List.map_cons, List.nodup_cons] at distinct
      rw [List.forall_mem_cons] at known
      have later : overriddenBy userDefinedNames (Assoc.assign head.1 head.2 nameValueMap) rest =
          overriddenBy userDefinedNames nameValueMap rest := by
        apply List.map_congr_left
        intro entry member
        have different : entry.1 ≠ head.1 := by
          intro same
          exact distinct.1 (same ▸ List.mem_map_of_mem (List.mem_of_mem_filter member))
        rw [Assoc.lookup_assign_ne different]
      rw [List.map_cons, List.foldlM_cons, parseItem_string known.1]
      simp only [bind, Except.bind]
      rw [ih distinct.2 known.2, later]
      by_cases given : head.1 ∈ userDefinedNames
      · simp [given, Assoc.assignAll, overriddenBy]
      · simp [given, Assoc.assignAll, overriddenBy]

/-- A file with settings assigns them, and tells which values of the user it overrides. -/
theorem Settings.Reads.parse (reads : settings.Reads host path) :
    parseEnvironmentFile host path getAllVars userDefinedNames nameValueMap =
      .ok (Assoc.assignAll settings.entries nameValueMap,
        overriddenBy userDefinedNames nameValueMap settings.entries) := by
  rw [Settings.Reads] at reads
  rw [parseEnvironmentFile]
  cases contents : host.readFile path with
  | none =>
      rw [contents] at reads
      simp only at reads
      rw [reads]
      rfl
  | some text =>
      rw [contents] at reads
      simp only at reads
      simp only [reads, Json.type, Json.objectItems]
      exact foldlM_parseItem settings.distinct settings.known

theorem items_of_foldlM {items : List (String × Json)} {start parsed : List (String × String) × List Overridden}
    (done : items.foldlM (parseItem allNames userDefinedNames) start = .ok parsed) :
    ∃ entries : List (String × String), items = entries.map (fun entry => (entry.1, .string entry.2)) ∧
      ∀ entry ∈ entries, entry.1 ∈ allNames := by
  induction items generalizing start with
  | nil => exact ⟨[], rfl, by simp⟩
  | cons item rest ih =>
      rw [List.foldlM_cons] at done
      obtain ⟨next, first, others⟩ := Transition.ok_of_bind done
      obtain ⟨known, value, text⟩ := parseItem_ok first
      obtain ⟨entries, rfl, all_known⟩ := ih others
      exact ⟨(item.1, value) :: entries, by rw [List.map_cons, ← text], List.forall_mem_cons.mpr ⟨known, all_known⟩⟩

/-- A file that is accepted has settings, or cannot be read. -/
theorem settings_of_parse {parsed : List (String × String) × List Overridden}
    (done : parseEnvironmentFile host path getAllVars userDefinedNames nameValueMap = .ok parsed) :
    ∃ settings : Settings, settings.Reads host path := by
  rw [parseEnvironmentFile] at done
  cases contents : host.readFile path with
  | none => exact ⟨⟨[], by simp, by simp⟩, by simp [Settings.Reads, contents]⟩
  | some text =>
      simp only [contents] at done
      split at done
      · cases done
      · case isFalse formed =>
          simp only [not_or, not_not] at formed
          obtain ⟨no_error, object⟩ := formed
          obtain ⟨entries, items, known⟩ := items_of_foldlM done
          have whole : host.parse text = (.object (entries.map fun entry => (entry.1, .string entry.2)), "") := by
            rw [← items]
            exact Prod.ext (Json.eq_object object) no_error
          have distinct := host.distinct _ _ _ whole
          rw [List.map_map] at distinct
          refine ⟨⟨entries, distinct, known⟩, ?_⟩
          rw [Settings.Reads, contents]
          exact whole

theorem parseEnvironment_lookup :
    Assoc.lookup name (names.foldl (parseVariable getenv) environment).nameValueMap =
      if name ∈ names then (getenv name).or (Assoc.lookup name environment.nameValueMap)
      else Assoc.lookup name environment.nameValueMap := by
  induction names generalizing environment with
  | nil => simp
  | cons head rest ih =>
      have first : Assoc.lookup name (parseVariable getenv environment head).nameValueMap =
          if name = head then (getenv name).or (Assoc.lookup name environment.nameValueMap)
          else Assoc.lookup name environment.nameValueMap := by
        rw [parseVariable]
        by_cases same : name = head
        · subst same
          cases getenv name with
          | none => simp
          | some value => simp
        · cases getenv head with
          | none => simp [same]
          | some value => simp [same, Assoc.lookup_assign_ne same]
      rw [List.foldl_cons, ih, first]
      by_cases same : name = head
      · cases getenv name with
        | none => simp [same]
        | some value => simp [same]
      · simp [same]

theorem parseEnvironment_given (known : name ∈ getAllVars) :
    Assoc.lookup name (environment.parseEnvironment getenv).nameValueMap =
      (getenv name).or (Assoc.lookup name environment.nameValueMap) := by
  rw [parseEnvironment, parseEnvironment_lookup, if_pos known]

theorem endpoint_known : "GEOPM_ENDPOINT" ∈ getAllVars := by decide +kernel

theorem policy_known : "GEOPM_POLICY" ∈ getAllVars := by decide +kernel

theorem policy_ne_endpoint : "GEOPM_POLICY" ≠ "GEOPM_ENDPOINT" := by decide +kernel

theorem mergeUser_none (unset : Assoc.lookup "GEOPM_ENDPOINT" nameValueMap = none) :
    mergeUser getenv nameValueMap = parseEnvironment getenv ⟨nameValueMap, []⟩ := by
  simp only [mergeUser, isSet, unset, Option.isSome_none, Bool.false_eq_true, false_and, if_false]

/-- An endpoint is taken out, and put back unless the variables of the user, with those before them, give an endpoint or
a policy. -/
theorem mergeUser_some {endpoint : String} (found : Assoc.lookup "GEOPM_ENDPOINT" nameValueMap = some endpoint) :
    (mergeUser getenv nameValueMap).nameValueMap =
      if getenv "GEOPM_ENDPOINT" = none ∧ getenv "GEOPM_POLICY" = none ∧
          Assoc.lookup "GEOPM_POLICY" nameValueMap = none then
        Assoc.assign "GEOPM_ENDPOINT" endpoint
          (parseEnvironment getenv ⟨Assoc.erase "GEOPM_ENDPOINT" nameValueMap, []⟩).nameValueMap
      else (parseEnvironment getenv ⟨Assoc.erase "GEOPM_ENDPOINT" nameValueMap, []⟩).nameValueMap := by
  have endpoint_given := @parseEnvironment_given _ ⟨Assoc.erase "GEOPM_ENDPOINT" nameValueMap, []⟩ getenv endpoint_known
  have policy_given := @parseEnvironment_given _ ⟨Assoc.erase "GEOPM_ENDPOINT" nameValueMap, []⟩ getenv policy_known
  rw [Assoc.lookup_erase, Option.or_none] at endpoint_given
  rw [Assoc.lookup_erase_ne policy_ne_endpoint] at policy_given
  simp only [mergeUser, EnvironmentImp.endpoint, lookup, isSet, found, Option.isSome_some, Option.getD_some, if_true,
    endpoint_given, policy_given, true_and]
  rw [apply_ite EnvironmentImp.nameValueMap]
  simp

/-- The endpoint of the default file is dropped where there is a policy, be it of the user or of the same file. -/
theorem mergeUser_endpoint :
    Assoc.lookup "GEOPM_ENDPOINT" (mergeUser getenv nameValueMap).nameValueMap =
      (getenv "GEOPM_ENDPOINT").or
        (if (getenv "GEOPM_POLICY").isSome ∨ (Assoc.lookup "GEOPM_POLICY" nameValueMap).isSome then none
        else Assoc.lookup "GEOPM_ENDPOINT" nameValueMap) := by
  cases found : Assoc.lookup "GEOPM_ENDPOINT" nameValueMap with
  | none => rw [mergeUser_none found, parseEnvironment_given endpoint_known, found, ite_self]
  | some endpoint =>
      have given := @parseEnvironment_given _ ⟨Assoc.erase "GEOPM_ENDPOINT" nameValueMap, []⟩ getenv endpoint_known
      rw [Assoc.lookup_erase, Option.or_none] at given
      rw [mergeUser_some found]
      cases user : getenv "GEOPM_ENDPOINT" with
      | some value => simp [given, user]
      | none =>
          rw [user] at given
          by_cases policy : getenv "GEOPM_POLICY" = none ∧ Assoc.lookup "GEOPM_POLICY" nameValueMap = none
          · simp [policy]
          · have some_policy : (getenv "GEOPM_POLICY").isSome ∨ (Assoc.lookup "GEOPM_POLICY" nameValueMap).isSome := by
              rwa [Option.isSome_iff_ne_none, Option.isSome_iff_ne_none, ← not_and_or]
            rw [if_neg (fun both => policy both.2), given, if_pos some_policy]
            rfl

/-- The other variables have the user's values, or those before them. -/
theorem mergeUser_other (known : name ∈ getAllVars) (other : name ≠ "GEOPM_ENDPOINT") :
    Assoc.lookup name (mergeUser getenv nameValueMap).nameValueMap =
      (getenv name).or (Assoc.lookup name nameValueMap) := by
  cases found : Assoc.lookup "GEOPM_ENDPOINT" nameValueMap with
  | none => rw [mergeUser_none found, parseEnvironment_given known]
  | some endpoint =>
      have kept := @parseEnvironment_given _ ⟨Assoc.erase "GEOPM_ENDPOINT" nameValueMap, []⟩ getenv known
      rw [Assoc.lookup_erase_ne other] at kept
      rw [mergeUser_some found]
      split
      · rw [Assoc.lookup_assign_ne other, kept]
      · exact kept

theorem mergeUser_lookup (known : name ∈ getAllVars) :
    Assoc.lookup name (mergeUser getenv nameValueMap).nameValueMap =
      (getenv name).or
        (if name = "GEOPM_ENDPOINT" ∧
            ((getenv "GEOPM_POLICY").isSome ∨ (Assoc.lookup "GEOPM_POLICY" nameValueMap).isSome) then none
        else Assoc.lookup name nameValueMap) := by
  by_cases same : name = "GEOPM_ENDPOINT"
  · subst same
    simp only [mergeUser_endpoint, true_and]
  · rw [mergeUser_other known same, if_neg fun both => same both.1]

theorem builtIn_lookup (euid : Nat) : Assoc.lookup "GEOPM_ENDPOINT" (builtIn euid) = none ∧
    Assoc.lookup "GEOPM_POLICY" (builtIn euid) = none := by
  have names : (builtIn euid).map Prod.fst = (builtIn 0).map Prod.fst := rfl
  constructor
  · apply Assoc.lookup_eq_none
    rw [names]
    decide +kernel
  · apply Assoc.lookup_eq_none
    rw [names]
    decide +kernel

/-- With settings in both files the constructor does not fail, and a variable has the override, the user's value or the
default. -/
theorem new_lookup (defaultReads : default.Reads host defaultPath) (overrideReads : override.Reads host overridePath) :
    ∃ environment warnings, new host defaultPath overridePath = .ok (environment, warnings) ∧
      ∀ name ∈ getAllVars, Assoc.lookup name environment.nameValueMap =
        (override.value name).or ((host.getenv name).or
          (if name = "GEOPM_ENDPOINT" ∧
              ((host.getenv "GEOPM_POLICY").isSome ∨ (default.value "GEOPM_POLICY").isSome) then none
          else default.defaults host.euid name)) := by
  rw [new, defaultReads.parse]
  simp only [bind, Except.bind]
  rw [overrideReads.parse]
  refine ⟨_, _, rfl, ?_⟩
  intro name known
  have policy : Assoc.lookup "GEOPM_POLICY" (Assoc.assignAll default.entries (builtIn host.euid)) =
      default.value "GEOPM_POLICY" := by
    rw [Assoc.lookup_assignAll default.distinct, (builtIn_lookup host.euid).2, Option.or_none, Settings.value]
  rw [Assoc.lookup_assignAll override.distinct, mergeUser_lookup known, policy, Assoc.lookup_assignAll default.distinct]
  rfl

/-- The constructor throws unless both files have settings. -/
theorem new_ok_iff : (∃ made, new host defaultPath overridePath = .ok made) ↔
    (∃ default : Settings, default.Reads host defaultPath) ∧
      ∃ override : Settings, override.Reads host overridePath := by
  constructor
  · rintro ⟨made, done⟩
    obtain ⟨defaults, first, later⟩ := Transition.ok_of_bind done
    obtain ⟨merged, second, _⟩ := Transition.ok_of_bind later
    exact ⟨settings_of_parse first, settings_of_parse second⟩
  · rintro ⟨⟨default, defaultReads⟩, override, overrideReads⟩
    obtain ⟨environment, warnings, made, _⟩ := new_lookup defaultReads overrideReads
    exact ⟨_, made⟩

/-- Where the default file gives no endpoint, or no policy, a policy of it makes no difference. -/
theorem dropped_eq_resolved
    (apart : ¬ ((default.value "GEOPM_ENDPOINT").isSome ∧ (default.value "GEOPM_POLICY").isSome ∧
      host.getenv "GEOPM_ENDPOINT" = none ∧ host.getenv "GEOPM_POLICY" = none ∧
      override.value "GEOPM_ENDPOINT" = none)) :
    (override.value name).or ((host.getenv name).or
      (if name = "GEOPM_ENDPOINT" ∧
          ((host.getenv "GEOPM_POLICY").isSome ∨ (default.value "GEOPM_POLICY").isSome) then none
      else default.defaults host.euid name)) =
      resolved (default.defaults host.euid) host.getenv override.value name := by
  rw [resolved]
  by_cases same : name = "GEOPM_ENDPOINT"
  case neg => simp [same]
  case pos =>
      subst same
      cases overridden : override.value "GEOPM_ENDPOINT" with
      | some value => rfl
      | none =>
          cases given : host.getenv "GEOPM_ENDPOINT" with
          | some value => rfl
          | none =>
              cases policy : host.getenv "GEOPM_POLICY" with
              | some value => simp
              | none =>
                  by_cases default_policy : (default.value "GEOPM_POLICY").isSome
                  case neg => simp [default_policy]
                  case pos =>
                      have no_endpoint : default.value "GEOPM_ENDPOINT" = none := by
                        by_contra endpoint
                        exact apart ⟨Option.isSome_iff_ne_none.mpr endpoint, default_policy, given, policy, overridden⟩
                      simp [Settings.defaults, no_endpoint, builtIn_lookup]

/-- The order of precedence holds unless the default file gives both an endpoint, which nothing else gives, and a policy
that the user does not give. -/
theorem precedes_iff (host : Host) (defaultPath overridePath : String) (default override : Settings)
    (defaultReads : default.Reads host defaultPath) (overrideReads : override.Reads host overridePath) :
    (∃ environment warnings, new host defaultPath overridePath = .ok (environment, warnings) ∧
      environment.Precedes (default.defaults host.euid) host.getenv override.value) ↔
    ¬ ((default.value "GEOPM_ENDPOINT").isSome ∧ (default.value "GEOPM_POLICY").isSome ∧
      host.getenv "GEOPM_ENDPOINT" = none ∧ host.getenv "GEOPM_POLICY" = none ∧
      override.value "GEOPM_ENDPOINT" = none) := by
  obtain ⟨environment, warnings, made, values⟩ := new_lookup defaultReads overrideReads
  rw [made]
  constructor
  · rintro ⟨_, _, same, precedes⟩ ⟨endpoint, policy, no_endpoint, no_policy, no_override⟩
    cases same
    have dropped := (precedes _ endpoint_known).1
    rw [isSet, values _ endpoint_known, resolved, no_override, no_endpoint, no_policy] at dropped
    simp [policy, endpoint, Settings.defaults] at dropped
  · intro apart
    refine ⟨environment, warnings, rfl, ?_⟩
    intro name known
    have value := values name known
    rw [dropped_eq_resolved apart] at value
    rw [isSet, lookup, value]
    exact ⟨rfl, rfl⟩

/-- The first file gives these settings, and the second one cannot be read. -/
def oneFile (settings : Settings) (getenv : String → Option String) : Host where
  readFile path := if path = "default" then some "settings" else none
  parse _ := (.object (settings.entries.map fun entry => (entry.1, .string entry.2)), "")
  distinct text items err same := by
    cases same
    rw [List.map_map]
    exact settings.distinct
  getenv := getenv
  euid := 0

def noSettings : Settings := ⟨[], by simp, by simp⟩

def endpointOnly : Settings := ⟨[("GEOPM_ENDPOINT", "/endpoint")], by simp, by decide +kernel⟩

def userPolicy (name : String) : Option String := if name = "GEOPM_POLICY" then some "policy" else none

/-- An endpoint of the default file is dropped for a policy of the user. -/
theorem precedes_iff_user :
    (∃ environment warnings, new (oneFile endpointOnly userPolicy) "default" "override" = .ok (environment, warnings) ∧
      environment.Precedes (endpointOnly.defaults 0) userPolicy noSettings.value) ↔
    ¬ ((endpointOnly.value "GEOPM_ENDPOINT").isSome ∧ (endpointOnly.value "GEOPM_POLICY").isSome ∧
      userPolicy "GEOPM_ENDPOINT" = none ∧ userPolicy "GEOPM_POLICY" = none ∧
      noSettings.value "GEOPM_ENDPOINT" = none) :=
  precedes_iff (oneFile endpointOnly userPolicy) "default" "override" endpointOnly noSettings rfl rfl

/-- The default file gives an endpoint and a policy, and nothing else does. -/
theorem not_precedes_policy :
    ¬ ∀ (host : Host) (defaultPath overridePath : String) (default override : Settings),
      default.Reads host defaultPath → override.Reads host overridePath →
      ∃ environment warnings, new host defaultPath overridePath = .ok (environment, warnings) ∧
        environment.Precedes (default.defaults host.euid) host.getenv override.value := by
  intro all
  obtain ⟨environment, warnings, made, precedes⟩ := all
    (oneFile ⟨[("GEOPM_ENDPOINT", "/endpoint"), ("GEOPM_POLICY", "policy")], by decide +kernel, by decide +kernel⟩
      fun _ => none)
    "default" "override" _ noSettings rfl rfl
  have dropped : environment.isSet "GEOPM_ENDPOINT" = false := by
    cases made
    decide +kernel
  have kept := (precedes "GEOPM_ENDPOINT" endpoint_known).1
  rw [dropped] at kept
  revert kept
  decide +kernel

end EnvironmentImp

end Geopm
