import Geopm.Library.Assoc
import Geopm.Library.Outcome

namespace Geopm

/-! `OptionParser`: the values that the arguments of a program give to its options. -/

inductive OptionError where
  /-- "OptionParser::check_add_option(): cannot have ? as a short option" -/
  | questionMark
  /-- "OptionParser::check_add_option(): short form " and " already assigned to an option." -/
  | shortFormAssigned (shortForm : Char)
  /-- "OptionParser::check_add_option(): long form " and " already assigned to an option." -/
  | longFormAssigned (longForm : String)
  /-- "Invalid option " and the name. -/
  | invalidName (name : String)
  /-- "Error: invalid option" -/
  | invalidOption
  /-- "Error: getopt returned character code " and the code. -/
  | characterCode (code : Char)
deriving Repr, DecidableEq

/-- `m_opt_parse_s`. -/
structure OptParse (Value : Type) where
  shortForm : Char
  longForm : String
  value : Value
  defaultValue : Value
  description : String
deriving Repr, DecidableEq

namespace OptParse

variable {Value : Type}

/-- The option has the value of no argument. -/
def IsDefault (entry : String × OptParse Value) : Prop := entry.2.value = entry.2.defaultValue

def setValue (value : Value) (opt : OptParse Value) : OptParse Value := { opt with value }

/-- What `check_add_option` checks for an option that is there. -/
def checkForms (shortForm : Char) (longForm : String) (entry : String × OptParse Value) : Except OptionError Unit :=
  if shortForm = entry.2.shortForm then .error (.shortFormAssigned shortForm)
  else if longForm = entry.2.longForm then .error (.longFormAssigned longForm)
  else .ok ()

end OptParse

/-- A string to add an option with, or a flag. -/
inductive OptionValue where
  | flag (value : Bool)
  | text (value : String)
deriving Repr, DecidableEq

structure Registration where
  name : String
  shortForm : Char
  longForm : String
  defaultVal : OptionValue
  description : String
deriving Repr, DecidableEq

structure OptionParser where
  boolOpts : List (String × OptParse Bool)
  strOpts : List (String × OptParse String)
  boolShortName : List (Char × String)
  strShortName : List (Char × String)
  positionalArgs : List String
deriving Repr, DecidableEq

/-- A call of `getopt_long` returns a character, and may leave an argument in `optarg`. -/
abbrev Found := Char × Option String

/-- An element of the array of long options. -/
structure LongOption where
  name : String
  hasArg : Bool
  val : Char
deriving Repr, DecidableEq

/-- The calls of `getopt_long` for an argument vector, from the first one on. -/
structure Scan where
  /-- what they return, until one returns -1 -/
  found : List Found
  /-- the arguments from `optind` on after some number of calls -/
  rest : Nat → List String

/-- `getopt_long`, which is given the short and the long options. -/
abbrev Getopt := String → List LongOption → List String → Scan

/-- What a call of `parse` prints. -/
inductive Printed where
  | helpToErr
  | helpToOut
  | version
deriving Repr, DecidableEq

namespace OptionParser

/-- `check_add_option`. -/
def checkAddOption (shortForm : Char) (longForm : String) (parser : OptionParser) : Except OptionError Unit := do
  if shortForm = '?' then .error .questionMark
  parser.boolOpts.forM (OptParse.checkForms shortForm longForm)
  parser.strOpts.forM (OptParse.checkForms shortForm longForm)

/-- `add_option`. -/
def addOption (parser : OptionParser) (registration : Registration) : Except OptionError OptionParser := do
  let ⟨name, shortForm, longForm, defaultVal, description⟩ := registration
  parser.checkAddOption shortForm longForm
  match defaultVal with
  | .flag value =>
      return { parser with
        boolOpts := Assoc.place name ⟨shortForm, longForm, value, value, description⟩ parser.boolOpts
        boolShortName := Assoc.assign shortForm name parser.boolShortName }
  | .text value =>
      return { parser with
        strOpts := Assoc.place name ⟨shortForm, longForm, value, value, description⟩ parser.strOpts
        strShortName := Assoc.assign shortForm name parser.strShortName }

def help : Registration :=
  ⟨"help", 'h', "help", .flag false, "print brief summary of the command line usage information, then exit"⟩

def version : Registration :=
  ⟨"version", 'V', "version", .flag false, "print version of GEOPM to standard output, then exit"⟩

/-- The constructor, and options that are added one after the other. -/
def withOptions (registrations : List Registration) : Except OptionError OptionParser :=
  (help :: version :: registrations).foldlM addOption ⟨[], [], [], [], []⟩

def shortOptions (parser : OptionParser) : String :=
  String.ofList (parser.boolOpts.map (fun entry => entry.2.shortForm) ++
    parser.strOpts.flatMap fun entry => [entry.2.shortForm, ':'])

def longOptions (parser : OptionParser) : List LongOption :=
  parser.boolOpts.map (fun entry => ⟨entry.2.longForm, false, entry.2.shortForm⟩) ++
    parser.strOpts.map fun entry => ⟨entry.2.longForm, true, entry.2.shortForm⟩

/-- The value of a flag is flipped from its default. -/
def setFlag (name : String) (parser : OptionParser) : OptionParser :=
  { parser with boolOpts := Assoc.adjust name (fun opt => opt.setValue !opt.defaultValue) parser.boolOpts }

def setText (name value : String) (parser : OptionParser) : OptionParser :=
  { parser with strOpts := Assoc.adjust name (OptParse.setValue value) parser.strOpts }

/-- How far the loop of `parse` has come. -/
structure Progress where
  parser : OptionParser
  doHelp : Bool
  doVersion : Bool
  err : Option OptionError
  calls : Nat

/-- The body of the loop of `parse`. -/
def readOption (progress : Progress) (found : Found) : Progress :=
  let called := { progress with calls := progress.calls + 1 }
  if found.1 = 'h' then { called with doHelp := true }
  else if found.1 = 'V' then { called with doVersion := true }
  else
    match Assoc.lookup found.1 progress.parser.boolShortName, Assoc.lookup found.1 progress.parser.strShortName with
    | some name, _ => { called with parser := progress.parser.setFlag name }
    | none, some name => { called with parser := progress.parser.setText name (found.2.getD "") }
    | none, none =>
        { called with
          doHelp := true
          err := some (if found.1 = '?' then .invalidOption else .characterCode found.1) }

/-- The loop of `parse`. -/
def readOptions : List Found → Progress → Progress
  | [], progress => { progress with calls := progress.calls + 1 }
  | found :: rest, progress =>
      let next := readOption progress found
      if next.err.isSome then next else readOptions rest next

def printed (progress : Progress) : List Printed :=
  (if progress.doHelp then [if progress.err.isSome then .helpToErr else .helpToOut] else []) ++
    if progress.doVersion then [.version] else []

/-- `parse`: what is printed, the result and the parser afterwards. -/
def parse (getopt : Getopt) (args : List String) (parser : OptionParser) :
    List Printed × Except OptionError Bool × OptionParser :=
  let scan := getopt parser.shortOptions parser.longOptions args
  let progress := readOptions scan.found ⟨parser, false, false, none, 0⟩
  let result := match progress.err with
    | some reason => .error reason
    | none => .ok (progress.doHelp || progress.doVersion)
  (printed progress, result, { progress.parser with positionalArgs := scan.rest progress.calls })

/-- `is_set`. -/
def isSet (name : String) (parser : OptionParser) : Except OptionError Bool :=
  match Assoc.lookup name parser.boolOpts with
  | none => .error (.invalidName name)
  | some opt => .ok opt.value

/-- `get_value`. -/
def getValue (name : String) (parser : OptionParser) : Except OptionError String :=
  match Assoc.lookup name parser.strOpts with
  | none => .error (.invalidName name)
  | some opt => .ok opt.value

/-- The parser after a call of `parse`. -/
def parsed (getopt : Getopt) (args : List String) (parser : OptionParser) : OptionParser :=
  (parser.parse getopt args).2.2

/-- The second vector gives the same as on the parser before the first one. -/
structure Independent (getopt : Getopt) (first second : List String) (parser : OptionParser) : Prop where
  flags : ∀ name, ((parser.parsed getopt first).parsed getopt second).isSet name = (parser.parsed getopt second).isSet name
  values : ∀ name,
    ((parser.parsed getopt first).parsed getopt second).getValue name = (parser.parsed getopt second).getValue name
  positional : ((parser.parsed getopt first).parsed getopt second).positionalArgs =
    (parser.parsed getopt second).positionalArgs

/-- The flag that a character stands for. -/
def flagName (parser : OptionParser) (code : Char) : Option String :=
  if code = 'h' ∨ code = 'V' then none else Assoc.lookup code parser.boolShortName

/-- The option with an argument that a character stands for. -/
def textName (parser : OptionParser) (code : Char) : Option String :=
  if code = 'h' ∨ code = 'V' ∨ (parser.flagName code).isSome then none else Assoc.lookup code parser.strShortName

/-- The character stands for some option. -/
def isKnown (parser : OptionParser) (code : Char) : Bool :=
  code == 'h' || code == 'V' || (parser.flagName code).isSome || (parser.textName code).isSome

/-- What a call of `parse` reads before an error, if there is one. -/
def readable (getopt : Getopt) (args : List String) (parser : OptionParser) : List Found :=
  (getopt parser.shortOptions parser.longOptions args).found.takeWhile fun found => parser.isKnown found.1

/-- The arguments have the flag. -/
def GivesFlag (getopt : Getopt) (args : List String) (name : String) (parser : OptionParser) : Prop :=
  ∃ found ∈ parser.readable getopt args, parser.flagName found.1 = some name

/-- The last argument for the option. -/
def givenText (getopt : Getopt) (args : List String) (name : String) (parser : OptionParser) : Option String :=
  ((parser.readable getopt args).filterMap fun found =>
    if parser.textName found.1 = some name then some (found.2.getD "") else none).getLast?

/-- What the first vector sets to other than its default is set by the second one. -/
structure SetsAgain (getopt : Getopt) (first second : List String) (parser : OptionParser) : Prop where
  flags : ∀ name, (Assoc.lookup name parser.boolOpts).isSome → parser.GivesFlag getopt first name →
    parser.GivesFlag getopt second name
  values : ∀ name opt, Assoc.lookup name parser.strOpts = some opt →
    ∀ value, parser.givenText getopt first name = some value → value ≠ opt.defaultValue →
      parser.givenText getopt second name ≠ none

/-- An option is set to what was found. -/
def assignFound (parser : OptionParser) (found : Found) : OptionParser :=
  match parser.flagName found.1 with
  | some name => parser.setFlag name
  | none =>
      match parser.textName found.1 with
      | some name => parser.setText name (found.2.getD "")
      | none => parser

/-- The options of both parsers are the same, apart from their values. -/
structure Alike (parser other : OptionParser) : Prop where
  shortOptions : parser.shortOptions = other.shortOptions
  longOptions : parser.longOptions = other.longOptions
  boolShortName : parser.boolShortName = other.boolShortName
  strShortName : parser.strShortName = other.strShortName

variable {parser other : OptionParser} {found : Found} {founds : List Found} {progress : Progress} {name : String}
  {getopt : Getopt} {args first second : List String} {code : Char}

theorem Alike.refl : parser.Alike parser := ⟨rfl, rfl, rfl, rfl⟩

theorem Alike.trans {third : OptionParser} (left : parser.Alike other) (right : other.Alike third) :
    parser.Alike third :=
  ⟨left.shortOptions.trans right.shortOptions, left.longOptions.trans right.longOptions,
    left.boolShortName.trans right.boolShortName, left.strShortName.trans right.strShortName⟩

theorem Alike.flagName (alike : parser.Alike other) : parser.flagName = other.flagName := by
  funext code
  rw [OptionParser.flagName, OptionParser.flagName, alike.boolShortName]

theorem Alike.textName (alike : parser.Alike other) : parser.textName = other.textName := by
  funext code
  rw [OptionParser.textName, OptionParser.textName, alike.flagName, alike.strShortName]

theorem Alike.isKnown (alike : parser.Alike other) : parser.isKnown = other.isKnown := by
  funext code
  rw [OptionParser.isKnown, OptionParser.isKnown, alike.flagName, alike.textName]

theorem Alike.readable (alike : parser.Alike other) :
    parser.readable getopt args = other.readable getopt args := by
  rw [OptionParser.readable, OptionParser.readable, alike.shortOptions, alike.longOptions, alike.isKnown]

/-- A change of the values of options leaves everything of them that does not depend on these. -/
theorem map_adjust {Value Result : Type} {opts : List (String × OptParse Value)} (change : OptParse Value → OptParse Value)
    (view : String × OptParse Value → Result) (same : ∀ key opt, view (key, change opt) = view (key, opt)) :
    (Assoc.adjust name change opts).map view = opts.map view := by
  rw [Assoc.adjust, List.map_map]
  apply List.map_congr_left
  intro entry _
  simp only [Function.comp]
  split
  · exact same entry.1 entry.2
  · rfl

theorem alike_setFlag : (parser.setFlag name).Alike parser where
  shortOptions := congrArg (fun forms : List Char => String.ofList (forms ++
      parser.strOpts.flatMap fun entry => [entry.2.shortForm, ':']))
    (map_adjust (fun opt => opt.setValue !opt.defaultValue) _ fun _ _ => rfl)
  longOptions := congrArg (fun forms : List LongOption => forms ++
      parser.strOpts.map fun entry => ⟨entry.2.longForm, true, entry.2.shortForm⟩)
    (map_adjust (fun opt => opt.setValue !opt.defaultValue) _ fun _ _ => rfl)
  boolShortName := rfl
  strShortName := rfl

theorem alike_setText {value : String} : (parser.setText name value).Alike parser where
  shortOptions := by
    rw [shortOptions, shortOptions, List.flatMap_def, List.flatMap_def]
    exact congrArg (fun forms : List (List Char) =>
        String.ofList (parser.boolOpts.map (fun entry => entry.2.shortForm) ++ forms.flatten))
      (map_adjust (OptParse.setValue value) _ fun _ _ => rfl)
  longOptions := congrArg (fun forms : List LongOption =>
      parser.boolOpts.map (fun entry => ⟨entry.2.longForm, false, entry.2.shortForm⟩) ++ forms)
    (map_adjust (OptParse.setValue value) _ fun _ _ => rfl)
  boolShortName := rfl
  strShortName := rfl

theorem alike_assignFound : (parser.assignFound found).Alike parser := by
  rw [assignFound]
  split
  · exact alike_setFlag
  · split
    · exact alike_setText
    · exact .refl

theorem alike_assignAll : (founds.foldl assignFound parser).Alike parser := by
  induction founds generalizing parser with
  | nil => exact .refl
  | cons found rest ih => exact ih.trans alike_assignFound

/-- A flag is flipped if it is found. -/
theorem lookup_boolOpts : Assoc.lookup name (founds.foldl assignFound parser).boolOpts =
    (Assoc.lookup name parser.boolOpts).map fun opt =>
      if founds.any fun found => parser.flagName found.1 = some name then opt.setValue !opt.defaultValue else opt := by
  induction founds using List.reverseRecOn with
  | nil =>
      simp only [List.foldl_nil, List.any_nil, Bool.false_eq_true, if_false]
      exact Option.map_id'.symm
  | append_singleton before last ih =>
      have alike := @alike_assignAll parser before
      rw [List.foldl_append, List.foldl_cons, List.foldl_nil]
      simp only [List.any_append, List.any_cons, List.any_nil, Bool.or_false]
      generalize reached : before.foldl assignFound parser = middle at ih alike ⊢
      rw [assignFound, alike.flagName]
      cases flag : parser.flagName last.1 with
      | none =>
          have others : (match middle.textName last.1 with
              | some other => middle.setText other (last.2.getD "")
              | none => middle).boolOpts = middle.boolOpts := by
            split <;> rfl
          simp only [others, ih, reduceCtorEq, decide_false, Bool.or_false]
      | some other =>
          simp only [setFlag, Assoc.lookup_adjust, ih, Option.map_map, Option.some.injEq]
          by_cases same : name = other
          case pos =>
              simp only [same, decide_true, Bool.or_true, if_true]
              congr 1
              funext opt
              simp only [Function.comp]
              split <;> rfl
          case neg => simp only [same, Ne.symm same, decide_false, Bool.or_false, if_false]

/-- An option with an argument has the last one. -/
theorem lookup_strOpts : Assoc.lookup name (founds.foldl assignFound parser).strOpts =
    (Assoc.lookup name parser.strOpts).map fun opt =>
      opt.setValue (((founds.filterMap fun found =>
        if parser.textName found.1 = some name then some (found.2.getD "") else none).getLast?).getD opt.value) := by
  induction founds using List.reverseRecOn with
  | nil =>
      simp only [List.foldl_nil, List.filterMap_nil, List.getLast?_nil, Option.getD_none]
      exact Option.map_id'.symm
  | append_singleton before last ih =>
      have alike := @alike_assignAll parser before
      rw [List.foldl_append, List.foldl_cons, List.foldl_nil, List.filterMap_append]
      generalize reached : before.foldl assignFound parser = middle at ih alike ⊢
      rw [assignFound, alike.flagName, alike.textName]
      cases flag : parser.flagName last.1 with
      | some other =>
          have text : parser.textName last.1 = none := by
            rw [textName, if_pos (.inr (.inr (by rw [flag, Option.isSome_some])))]
          simp only [List.filterMap_cons, List.filterMap_nil, text, if_false, reduceCtorEq, List.append_nil]
          exact ih
      | none =>
          cases text : parser.textName last.1 with
          | none =>
              simp only [List.filterMap_cons, List.filterMap_nil, text, if_false, reduceCtorEq, List.append_nil]
              exact ih
          | some other =>
              simp only [setText, Assoc.lookup_adjust, ih, Option.map_map, List.filterMap_cons, List.filterMap_nil, text,
                Option.some.injEq]
              by_cases same : name = other
              case pos =>
                  simp only [same, if_true, List.getLast?_append, List.getLast?_singleton, Option.some_or, Option.getD_some]
                  rfl
              case neg => simp only [same, Ne.symm same, if_false, List.append_nil]

theorem readOption_assigned : (readOption progress found).parser = progress.parser.assignFound found := by
  by_cases special : found.1 = 'h' ∨ found.1 = 'V'
  case pos =>
      have flag : progress.parser.flagName found.1 = none := if_pos special
      have text : progress.parser.textName found.1 = none := if_pos (or_assoc.mp (.inl special))
      rw [assignFound, flag, text, readOption]
      split
      · rfl
      · rw [if_pos (special.resolve_left ‹_›)]
  case neg =>
      obtain ⟨notHelp, notVersion⟩ := not_or.mp special
      rw [assignFound, textName, flagName, if_neg special, readOption, if_neg notHelp, if_neg notVersion]
      cases flag : Assoc.lookup found.1 progress.parser.boolShortName with
      | some name => rfl
      | none =>
          simp only [notHelp, notVersion, Option.isSome_none, Bool.false_eq_true, or_self, if_false]
          cases Assoc.lookup found.1 progress.parser.strShortName <;> rfl

/-- An error is found where no option is known. -/
theorem readOption_err (none : progress.err = none) :
    (readOption progress found).err.isSome = !progress.parser.isKnown found.1 := by
  by_cases special : found.1 = 'h' ∨ found.1 = 'V'
  case pos =>
      have known : progress.parser.isKnown found.1 = true := by
        rw [isKnown]
        cases special with
        | inl help => simp [help]
        | inr version => simp [version]
      rw [known, readOption]
      split
      · simp [none]
      · rw [if_pos (special.resolve_left ‹_›)]
        simp [none]
  case neg =>
      obtain ⟨notHelp, notVersion⟩ := not_or.mp special
      rw [isKnown, textName, flagName, if_neg special, readOption, if_neg notHelp, if_neg notVersion]
      cases flag : Assoc.lookup found.1 progress.parser.boolShortName with
      | some name => simp [none]
      | none =>
          simp only [notHelp, notVersion, Option.isSome_none, Bool.false_eq_true, or_self, if_false]
          cases Assoc.lookup found.1 progress.parser.strShortName <;> simp [none, notHelp, notVersion]

theorem readOption_calls : (readOption progress found).calls = progress.calls + 1 := by
  rw [readOption]
  split
  · rfl
  · split
    · rfl
    · split <;> rfl

/-- What is read up to an error is assigned, and the calls are counted. -/
theorem readOptions_eq (none : progress.err = none) :
    (readOptions founds progress).parser =
        (founds.takeWhile fun found => progress.parser.isKnown found.1).foldl assignFound progress.parser ∧
      (readOptions founds progress).calls =
        progress.calls + (founds.takeWhile fun found => progress.parser.isKnown found.1).length + 1 := by
  induction founds generalizing progress with
  | nil => exact ⟨rfl, rfl⟩
  | cons found rest ih =>
      have failed := @readOption_err found progress none
      rw [readOptions]
      cases known : progress.parser.isKnown found.1 with
      | false =>
          rw [known] at failed
          have unknown : progress.parser.assignFound found = progress.parser := by
            simp only [isKnown, Bool.or_eq_false_iff, Option.isSome_eq_false_iff, Option.isNone_iff_eq_none] at known
            rw [assignFound, known.1.2, known.2]
          simp only [failed, Bool.not_false, if_true, List.takeWhile_cons, known, Bool.false_eq_true, if_false,
            List.foldl_nil, List.length_nil, readOption_assigned, readOption_calls, unknown, and_self]
      | true =>
          rw [known] at failed
          have still : (readOption progress found).err = Option.none := by
            simpa using failed
          obtain ⟨parser, calls⟩ := ih still
          rw [readOption_assigned] at parser calls
          simp only [alike_assignFound.isKnown] at parser calls
          simp only [failed, Bool.not_true, Bool.false_eq_true, if_false, List.takeWhile_cons, known, if_true,
            List.foldl_cons, List.length_cons]
          refine ⟨parser, calls.trans ?_⟩
          rw [readOption_calls]
          omega

/-- What a call of `parse` leaves of the parser. -/
theorem parsed_eq : parser.parsed getopt args = { (parser.readable getopt args).foldl assignFound parser with
    positionalArgs := (getopt parser.shortOptions parser.longOptions args).rest
      ((parser.readable getopt args).length + 1) } := by
  have read := @readOptions_eq (getopt parser.shortOptions parser.longOptions args).found
    ⟨parser, false, false, none, 0⟩ rfl
  rw [parsed, parse, readable]
  simp only [read.1, read.2, Nat.zero_add]

theorem positional_parsed : (parser.parsed getopt args).positionalArgs =
    (getopt parser.shortOptions parser.longOptions args).rest ((parser.readable getopt args).length + 1) := by
  rw [parsed_eq]

theorem alike_parsed : (parser.parsed getopt args).Alike parser := by
  rw [parsed_eq]
  have alike := @alike_assignAll parser (parser.readable getopt args)
  exact ⟨alike.shortOptions, alike.longOptions, alike.boolShortName, alike.strShortName⟩

theorem givesFlag_iff : parser.GivesFlag getopt args name ↔
    ((parser.readable getopt args).any fun found => parser.flagName found.1 = some name) = true := by
  simp only [GivesFlag, List.any_eq_true, decide_eq_true_eq]

theorem Alike.givesFlag (alike : parser.Alike other) :
    parser.GivesFlag getopt args name ↔ other.GivesFlag getopt args name := by
  rw [GivesFlag, GivesFlag, alike.readable, alike.flagName]

theorem Alike.givenText (alike : parser.Alike other) :
    parser.givenText getopt args name = other.givenText getopt args name := by
  rw [OptionParser.givenText, OptionParser.givenText, alike.readable, alike.textName]

/-- A flag after a call of `parse`. -/
theorem lookup_parsed_boolOpts [Decidable (parser.GivesFlag getopt args name)] :
    Assoc.lookup name (parser.parsed getopt args).boolOpts = (Assoc.lookup name parser.boolOpts).map fun opt =>
      if parser.GivesFlag getopt args name then opt.setValue !opt.defaultValue else opt := by
  rw [parsed_eq]
  simp only [lookup_boolOpts, givesFlag_iff]

theorem lookup_parsed_strOpts : Assoc.lookup name (parser.parsed getopt args).strOpts =
    (Assoc.lookup name parser.strOpts).map fun opt =>
      opt.setValue ((parser.givenText getopt args name).getD opt.value) := by
  rw [parsed_eq]
  exact lookup_strOpts

/-- No option has another value than its default. -/
structure Fresh (parser : OptionParser) : Prop where
  flags : ∀ entry ∈ parser.boolOpts, OptParse.IsDefault entry
  texts : ∀ entry ∈ parser.strOpts, OptParse.IsDefault entry

theorem Fresh.addOption (fresh : parser.Fresh) (registration : Registration) :
    Outcome.Keeps (fun _ => True) Fresh (parser.addOption registration) := by
  obtain ⟨name, shortForm, longForm, defaultVal, description⟩ := registration
  refine Outcome.keeps_bind (fun _ _ => trivial) fun _ _ => ?_
  cases defaultVal with
  | flag value => exact ⟨Assoc.forall_place rfl fresh.flags, fresh.texts⟩
  | text value => exact ⟨fresh.flags, Assoc.forall_place rfl fresh.texts⟩

theorem Fresh.addOptions {registrations : List Registration} (fresh : parser.Fresh) :
    Outcome.Keeps (fun _ => True) Fresh (registrations.foldlM OptionParser.addOption parser) := by
  induction registrations generalizing parser with
  | nil => exact fresh
  | cons registration rest ih =>
      rw [List.foldlM_cons]
      exact (fresh.addOption registration).bind fun next fresh => ih fresh

theorem fresh_withOptions {registrations : List Registration} (registered : withOptions registrations = .ok parser) :
    parser.Fresh := by
  have empty : Fresh ⟨[], [], [], [], []⟩ := ⟨fun _ member => absurd member List.not_mem_nil, fun _ member =>
    absurd member List.not_mem_nil⟩
  have kept := @Fresh.addOptions _ (help :: version :: registrations) empty
  rw [withOptions] at registered
  rw [registered] at kept
  exact kept

/-- A flag has the same value unless only the first vector has it. -/
theorem Fresh.isSet_iff (fresh : parser.Fresh) :
    ((parser.parsed getopt first).parsed getopt second).isSet name = (parser.parsed getopt second).isSet name ↔
      ((Assoc.lookup name parser.boolOpts).isSome → parser.GivesFlag getopt first name →
        parser.GivesFlag getopt second name) := by
  classical
  rw [isSet, isSet, lookup_parsed_boolOpts, lookup_parsed_boolOpts, lookup_parsed_boolOpts]
  simp only [alike_parsed.givesFlag]
  cases known : Assoc.lookup name parser.boolOpts with
  | none => simp
  | some opt =>
      have default : opt.value = opt.defaultValue := fresh.flags _ (Assoc.mem_of_lookup known)
      by_cases again : parser.GivesFlag getopt second name
      · by_cases before : parser.GivesFlag getopt first name <;> simp [again, before, OptParse.setValue]
      · by_cases before : parser.GivesFlag getopt first name <;> simp [again, before, OptParse.setValue, default]

/-- An option with an argument has the same value unless only the first vector sets it to another one. -/
theorem Fresh.getValue_iff (fresh : parser.Fresh) :
    ((parser.parsed getopt first).parsed getopt second).getValue name = (parser.parsed getopt second).getValue name ↔
      ∀ opt, Assoc.lookup name parser.strOpts = some opt →
        ∀ value, parser.givenText getopt first name = some value → value ≠ opt.defaultValue →
          parser.givenText getopt second name ≠ none := by
  rw [getValue, getValue, lookup_parsed_strOpts, lookup_parsed_strOpts, lookup_parsed_strOpts]
  simp only [alike_parsed.givenText]
  cases known : Assoc.lookup name parser.strOpts with
  | none => simp
  | some opt =>
      have default : opt.value = opt.defaultValue := fresh.texts _ (Assoc.mem_of_lookup known)
      cases again : parser.givenText getopt second name with
      | some value => simp [OptParse.setValue]
      | none => cases before : parser.givenText getopt first name <;> simp [OptParse.setValue, default]

/-- The second vector gives the same as on a fresh parser exactly if it sets what the first one has set. -/
theorem independent_iff {registrations : List Registration} (registered : withOptions registrations = .ok parser) :
    parser.Independent getopt first second ↔ parser.SetsAgain getopt first second := by
  have fresh := fresh_withOptions registered
  constructor
  · intro independent
    exact ⟨fun name => fresh.isSet_iff.mp (independent.flags name),
      fun name => fresh.getValue_iff.mp (independent.values name)⟩
  · intro again
    refine ⟨fun name => fresh.isSet_iff.mpr (again.flags name),
      fun name => fresh.getValue_iff.mpr (again.values name), ?_⟩
    have alike := @alike_parsed parser getopt first
    rw [positional_parsed, positional_parsed, alike.readable, alike.shortOptions, alike.longOptions]

/-- `getopt_long` for arguments that are a flag each, or no option. -/
def flagsOnly : Getopt := fun short _ args => {
  found := args.filterMap fun arg => match arg.toList with
    | ['-', letter] => some (if letter ∈ short.toList then letter else '?', none)
    | _ => none
  rest := fun _ => args.filter fun arg => arg.toList.head? ≠ some '-' }

/-- One flag. -/
def verbose : List Registration := [⟨"verbose", 'v', "verbose", .flag false, "print more"⟩]

theorem independent_verbose : ∃ parser, withOptions verbose = .ok parser ∧
    (parser.Independent flagsOnly ["file"] ["-v"] ↔ parser.SetsAgain flagsOnly ["file"] ["-v"]) :=
  ⟨_, rfl, independent_iff (show withOptions verbose = .ok _ from rfl)⟩

/-- A flag of the first vector stays set. -/
theorem not_independent_verbose :
    ¬ ∀ (getopt : Getopt) (registrations : List Registration) (parser : OptionParser) (first second : List String),
      withOptions registrations = .ok parser → parser.Independent getopt first second := by
  intro all
  have registered : ∃ parser, withOptions verbose = .ok parser ∧
      ((parser.parsed flagsOnly ["-v"]).parsed flagsOnly []).isSet "verbose" = .ok true ∧
        (parser.parsed flagsOnly []).isSet "verbose" = .ok false := by
    refine ⟨_, rfl, ?_⟩
    decide +kernel
  obtain ⟨parser, registered, after, alone⟩ := registered
  have same := (all flagsOnly verbose parser ["-v"] [] registered).flags "verbose"
  rw [after, alone] at same
  cases same

end OptionParser

end Geopm
