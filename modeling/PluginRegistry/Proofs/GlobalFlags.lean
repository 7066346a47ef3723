import PluginRegistry.Clients.CommandLine
import PluginRegistry.Proofs.ConfigFiles

namespace PluginRegistry
open Acprctl

inductive GlobalScan where
  | needsValue
  | complete
  | invalid
  | passed
  deriving DecidableEq

@[irreducible] def globalScan (arg : String) : GlobalScan :=
  let parts := splitFlagValue arg
  if (valueFlags.lookup parts.1).isSome then
    if parts.2.isSome then .complete else .needsValue
  else if (boolFlags.lookup parts.1).isSome then
    if (parseOptionalBool (parts.2.getD "true")).isSome then .complete else .invalid
  else .passed

def isGlobalFlag (arg : String) : Bool :=
  globalScan arg ≠ .passed

inductive Taken where
  | flag
  | flagValue
  | command
  deriving DecidableEq

/-- What `parseGlobalFlags` takes each argument for; it stops at an invalid boolean. -/
def takes : List String → List Taken
  | [] => []
  | arg :: rest =>
    match globalScan arg with
    | .needsValue =>
      match rest with
      | [] => [.flag]
      | _ :: rest => .flag :: .flagValue :: takes rest
    | .complete => .flag :: takes rest
    | .invalid => [.flag]
    | .passed => .command :: takes rest

def commandTokens (args : List String) : List String :=
  ((args.zip (takes args)).filter fun token => token.2 = .command).map Prod.fst

def flagTokens (args : List String) : List String :=
  ((args.zip (takes args)).filter fun token => token.2 ≠ .command).map Prod.fst

/-- Whether `parseLocalOptions` takes the argument behind `arg` as the value of an option. -/
def takesValue (specs : OptionSpecs) (arg : String) : Bool :=
  startsWith "--" arg && (splitFlagValue arg).2.isNone &&
    ((specs (trimDashes (splitFlagValue arg).1)).any (·.hasValue))

inductive ArgRole where
  | flag
  | flagValue
  | word
  | separator
  | optionValue
  | operand
  deriving DecidableEq

def ArgRole.own : ArgRole → Bool
  | .optionValue | .operand => true
  | _ => false

/-- The arguments as they are meant, from left to right: global flags, the options of the
command with their values, and operands behind `--`. An invalid boolean ends the reading. -/
def reading (specs : OptionSpecs) : List String → List ArgRole
  | [] => []
  | arg :: rest =>
    if arg = "--" then .separator :: rest.map fun _ => .operand
    else
      match globalScan arg with
      | .needsValue =>
        match rest with
        | [] => [.flag]
        | _ :: rest => .flag :: .flagValue :: reading specs rest
      | .complete => .flag :: reading specs rest
      | .invalid => [.flag]
      | .passed =>
        if takesValue specs arg then
          match rest with
          | [] => [.word]
          | _ :: rest => .word :: .optionValue :: reading specs rest
        else .word :: reading specs rest

def OwnPassed (roles : List ArgRole) (taken : List Taken) : Prop :=
  ∀ (i : Nat) (role : ArgRole), roles[i]? = some role → role.own = true → taken[i]? = some .command

def OwnSpelled (roles : List ArgRole) (args : List String) : Prop :=
  ∀ (i : Nat) (role : ArgRole) (arg : String),
    roles[i]? = some role → role.own = true → args[i]? = some arg →
    isGlobalFlag arg = false

theorem ownPassed_nil (taken : List Taken) : OwnPassed [] taken := by
  intro i role h
  cases h

theorem ownSpelled_nil (args : List String) : OwnSpelled [] args := by
  intro i role arg h
  cases h

theorem ownPassed_cons {role : ArgRole} {roles : List ArgRole} {first : Taken}
    {taken : List Taken} :
    OwnPassed (role :: roles) (first :: taken) ↔
      (role.own = true → first = .command) ∧ OwnPassed roles taken := by
  constructor
  · intro h
    refine ⟨?_, fun i => h (i + 1)⟩
    intro hown
    simpa using h 0 role rfl hown
  · rintro ⟨hfirst, hrest⟩ i other hother hown
    cases i with
    | zero =>
      cases hother
      rw [hfirst hown]
      rfl
    | succ i => exact hrest i other hother hown

theorem ownSpelled_cons {role : ArgRole} {roles : List ArgRole} {arg : String}
    {args : List String} :
    OwnSpelled (role :: roles) (arg :: args) ↔
      (role.own = true → isGlobalFlag arg = false) ∧ OwnSpelled roles args := by
  constructor
  · intro h
    exact ⟨fun hown => h 0 role arg rfl hown rfl, fun i => h (i + 1)⟩
  · rintro ⟨hfirst, hrest⟩ i other token hother hown htoken
    cases i with
    | zero =>
      cases hother
      cases htoken
      exact hfirst hown
    | succ i => exact hrest i other token hother hown htoken

theorem takes_cons (arg : String) (rest : List String) :
    takes (arg :: rest) =
      match globalScan arg with
      | .needsValue =>
        match rest with
        | [] => [.flag]
        | _ :: rest => .flag :: .flagValue :: takes rest
      | .complete => .flag :: takes rest
      | .invalid => [.flag]
      | .passed => .command :: takes rest := by
  conv => lhs; unfold takes

section
variable {arg : String}

theorem takes_passed (h : isGlobalFlag arg = false) (rest : List String) :
    takes (arg :: rest) = .command :: takes rest := by
  have hscan : globalScan arg = .passed := by simpa [isGlobalFlag] using h
  rw [takes_cons, hscan]

theorem takes_complete (h : globalScan arg = .complete) (rest : List String) :
    takes (arg :: rest) = .flag :: takes rest := by
  rw [takes_cons, h]

theorem takes_invalid (h : globalScan arg = .invalid) (rest : List String) :
    takes (arg :: rest) = [.flag] := by
  rw [takes_cons, h]

theorem takes_lone (h : globalScan arg = .needsValue) : takes [arg] = [.flag] := by
  rw [takes_cons, h]

theorem takes_needsValue (h : globalScan arg = .needsValue) (value : String)
    (rest : List String) : takes (arg :: value :: rest) = .flag :: .flagValue :: takes rest := by
  rw [takes_cons, h]

theorem takes_flag (h : isGlobalFlag arg = true) (rest : List String) :
    ∃ taken, takes (arg :: rest) = .flag :: taken := by
  cases hscan : globalScan arg with
  | needsValue =>
    cases rest with
    | nil => exact ⟨_, takes_lone hscan⟩
    | cons value rest => exact ⟨_, takes_needsValue hscan value rest⟩
  | complete => exact ⟨_, takes_complete hscan rest⟩
  | invalid => exact ⟨_, takes_invalid hscan rest⟩
  | passed => simp [isGlobalFlag, hscan] at h

end

/-- What stands first and belongs to the command passes if it is not spelled as a flag. -/
theorem own_first {role : ArgRole} (hown : role.own = true) {roles : List ArgRole} {arg : String}
    {rest : List String} (h : OwnPassed roles (takes rest) ↔ OwnSpelled roles rest) :
    OwnPassed (role :: roles) (takes (arg :: rest)) ↔ OwnSpelled (role :: roles) (arg :: rest) := by
  rw [ownSpelled_cons]
  cases hflag : isGlobalFlag arg with
  | false =>
    rw [takes_passed hflag, ownPassed_cons, h]
    simp
  | true =>
    obtain ⟨taken, htaken⟩ := takes_flag hflag rest
    rw [htaken, ownPassed_cons]
    simp [hown]

theorem operands_iff (rest : List String) :
    OwnPassed (rest.map fun _ => .operand) (takes rest) ↔
      OwnSpelled (rest.map fun _ => .operand) rest := by
  induction rest with
  | nil => exact iff_of_true (ownPassed_nil _) (ownSpelled_nil _)
  | cons arg rest ih => exact own_first rfl ih

/-- The own arguments are passed on exactly where none is spelled like a global flag. The
induction is on the arguments. -/
theorem reading_iff (specs : OptionSpecs) (args : List String) :
    OwnPassed (reading specs args) (takes args) ↔ OwnSpelled (reading specs args) args := by
  induction hlength : args.length using Nat.strong_induction_on generalizing args with
  | _ n ih =>
  cases args with
  | nil => exact iff_of_true (ownPassed_nil _) (ownSpelled_nil _)
  | cons arg rest =>
    subst hlength
    have hrest := ih rest.length (by simp) rest rfl
    unfold reading
    split
    · rename_i hseparator
      subst hseparator
      have hpassed : isGlobalFlag "--" = false := by decide +kernel
      rw [takes_passed hpassed, ownPassed_cons, ownSpelled_cons, operands_iff]
      simp [ArgRole.own]
    · cases hscan : globalScan arg with
      | needsValue =>
        cases rest with
        | nil =>
          rw [takes_lone hscan]
          dsimp only
          rw [ownPassed_cons, ownSpelled_cons]
          simp [ArgRole.own, ownPassed_nil, ownSpelled_nil]
        | cons value rest =>
          have htail := ih rest.length (by simp only [List.length_cons]; omega) rest rfl
          rw [takes_needsValue hscan]
          dsimp only
          rw [ownPassed_cons, ownPassed_cons, ownSpelled_cons, ownSpelled_cons, htail]
          simp [ArgRole.own]
      | complete =>
        rw [takes_complete hscan]
        dsimp only
        rw [ownPassed_cons, ownSpelled_cons, hrest]
        simp [ArgRole.own]
      | invalid =>
        rw [takes_invalid hscan]
        dsimp only
        rw [ownPassed_cons, ownSpelled_cons]
        simp [ArgRole.own, ownPassed_nil, ownSpelled_nil]
      | passed =>
        have hpassed : isGlobalFlag arg = false := by simp [isGlobalFlag, hscan]
        rw [takes_passed hpassed]
        dsimp only
        split
        · cases rest with
          | nil =>
            rw [ownPassed_cons, ownSpelled_cons]
            simp [ArgRole.own, ownPassed_nil, ownSpelled_nil]
          | cons value rest =>
            have htail := ih rest.length (by simp only [List.length_cons]; omega) rest rfl
            have hown : OwnPassed (.optionValue :: reading specs rest) (takes (value :: rest)) ↔
                OwnSpelled (.optionValue :: reading specs rest) (value :: rest) :=
              own_first rfl htail
            dsimp only
            rw [ownPassed_cons, ownSpelled_cons, hown]
            simp [ArgRole.own]
        · rw [ownPassed_cons, ownSpelled_cons, hrest]
          simp [ArgRole.own]

/-- What the scan says about the two tables of flags. -/
theorem globalScan_cases (arg : String) :
    (∃ setter, valueFlags.lookup (splitFlagValue arg).1 = some setter ∧
        ((∃ value, (splitFlagValue arg).2 = some value ∧ globalScan arg = .complete) ∨
          ((splitFlagValue arg).2 = none ∧ globalScan arg = .needsValue))) ∨
      (valueFlags.lookup (splitFlagValue arg).1 = none ∧
        ∃ setter, boolFlags.lookup (splitFlagValue arg).1 = some setter ∧
          ((∃ value, parseOptionalBool ((splitFlagValue arg).2.getD "true") = some value ∧
              globalScan arg = .complete) ∨
            (parseOptionalBool ((splitFlagValue arg).2.getD "true") = none ∧
              globalScan arg = .invalid))) ∨
      (valueFlags.lookup (splitFlagValue arg).1 = none ∧
        boolFlags.lookup (splitFlagValue arg).1 = none ∧ globalScan arg = .passed) := by
  unfold globalScan
  dsimp only
  cases hvalue : valueFlags.lookup (splitFlagValue arg).1 with
  | some setter =>
    refine Or.inl ⟨setter, rfl, ?_⟩
    cases hinline : (splitFlagValue arg).2 with
    | some value => exact Or.inl ⟨value, rfl, rfl⟩
    | none => exact Or.inr ⟨rfl, rfl⟩
  | none =>
    right
    cases hbool : boolFlags.lookup (splitFlagValue arg).1 with
    | some setter =>
      refine Or.inl ⟨rfl, setter, rfl, ?_⟩
      cases hparse : parseOptionalBool ((splitFlagValue arg).2.getD "true") with
      | some value => exact Or.inl ⟨value, rfl, rfl⟩
      | none => exact Or.inr ⟨rfl, rfl⟩
    | none => exact Or.inr ⟨rfl, rfl, rfl⟩

theorem parseGlobalFrom_cons (flags : GlobalFlags) (remaining : List String) (arg : String)
    (rest : List String) :
    parseGlobalFrom flags remaining (arg :: rest) =
      match valueFlags.lookup (splitFlagValue arg).1 with
      | some setter =>
        match (splitFlagValue arg).2 with
        | some value => parseGlobalFrom (setter value flags) remaining rest
        | none =>
          match rest with
          | value :: rest => parseGlobalFrom (setter value flags) remaining rest
          | [] => .error ((splitFlagValue arg).1 ++ " requires a value")
      | none =>
        match boolFlags.lookup (splitFlagValue arg).1 with
        | some switch =>
          match parseOptionalBool ((splitFlagValue arg).2.getD "true") with
          | some on => parseGlobalFrom (switch on flags) remaining rest
          | none =>
            .error ("invalid boolean for " ++ (splitFlagValue arg).1 ++ ": " ++
              (splitFlagValue arg).2.getD "true")
        | none => parseGlobalFrom flags (remaining ++ [arg]) rest := by
  have hunfold := parseGlobalFrom.eq_def flags remaining (arg :: rest)
  exact hunfold.trans rfl

section
variable {arg value : String} {setter : String → GlobalFlags → GlobalFlags}
  {switch : Bool → GlobalFlags → GlobalFlags}

theorem parse_inline (hvalue : valueFlags.lookup (splitFlagValue arg).1 = some setter)
    (hinline : (splitFlagValue arg).2 = some value) (flags : GlobalFlags)
    (remaining rest : List String) :
    parseGlobalFrom flags remaining (arg :: rest) =
      parseGlobalFrom (setter value flags) remaining rest := by
  simp only [parseGlobalFrom_cons, hvalue, hinline]

theorem parse_value (hvalue : valueFlags.lookup (splitFlagValue arg).1 = some setter)
    (hinline : (splitFlagValue arg).2 = none) (flags : GlobalFlags)
    (remaining rest : List String) :
    parseGlobalFrom flags remaining (arg :: value :: rest) =
      parseGlobalFrom (setter value flags) remaining rest := by
  simp only [parseGlobalFrom_cons, hvalue, hinline]

theorem parse_lone (hvalue : valueFlags.lookup (splitFlagValue arg).1 = some setter)
    (hinline : (splitFlagValue arg).2 = none) (flags : GlobalFlags) (remaining : List String) :
    parseGlobalFrom flags remaining [arg] =
      .error ((splitFlagValue arg).1 ++ " requires a value") := by
  simp only [parseGlobalFrom_cons, hvalue, hinline]

theorem parse_switch (hvalue : valueFlags.lookup (splitFlagValue arg).1 = none)
    (hbool : boolFlags.lookup (splitFlagValue arg).1 = some switch) {on : Bool}
    (hparse : parseOptionalBool ((splitFlagValue arg).2.getD "true") = some on)
    (flags : GlobalFlags) (remaining rest : List String) :
    parseGlobalFrom flags remaining (arg :: rest) =
      parseGlobalFrom (switch on flags) remaining rest := by
  simp only [parseGlobalFrom_cons, hvalue, hbool, hparse]

theorem parse_invalid (hvalue : valueFlags.lookup (splitFlagValue arg).1 = none)
    (hbool : boolFlags.lookup (splitFlagValue arg).1 = some switch)
    (hparse : parseOptionalBool ((splitFlagValue arg).2.getD "true") = none)
    (flags : GlobalFlags) (remaining rest : List String) :
    parseGlobalFrom flags remaining (arg :: rest) =
      .error ("invalid boolean for " ++ (splitFlagValue arg).1 ++ ": " ++
        (splitFlagValue arg).2.getD "true") := by
  simp only [parseGlobalFrom_cons, hvalue, hbool, hparse]

theorem parse_passed (hvalue : valueFlags.lookup (splitFlagValue arg).1 = none)
    (hbool : boolFlags.lookup (splitFlagValue arg).1 = none) (flags : GlobalFlags)
    (remaining rest : List String) :
    parseGlobalFrom flags remaining (arg :: rest) =
      parseGlobalFrom flags (remaining ++ [arg]) rest := by
  simp only [parseGlobalFrom_cons, hvalue, hbool]

end

/-- The flags are parsed from the flag arguments alone, and the command receives the
others in their order. -/
theorem parseGlobalFrom_eq (flags : GlobalFlags) (remaining args : List String) :
    parseGlobalFrom flags remaining args =
      (parseGlobalFrom flags [] (flagTokens args)).map fun parsed =>
        (parsed.1, remaining ++ commandTokens args) := by
  induction hlength : args.length using Nat.strong_induction_on generalizing flags remaining args with
  | _ n ih =>
  cases args with
  | nil => simp [parseGlobalFrom, flagTokens, commandTokens, takes, Except.map]
  | cons arg rest =>
    subst hlength
    have hrest := fun flags remaining => ih rest.length (by simp) flags remaining rest rfl
    rcases globalScan_cases arg with ⟨setter, hvalue, hcase⟩ | ⟨hvalue, switch, hbool, hcase⟩ |
      ⟨hvalue, hbool, hscan⟩
    · rcases hcase with ⟨value, hinline, hscan⟩ | ⟨hinline, hscan⟩
      · have hflags : flagTokens (arg :: rest) = arg :: flagTokens rest := by
          simp [flagTokens, takes_complete hscan]
        have hcommand : commandTokens (arg :: rest) = commandTokens rest := by
          simp [commandTokens, takes_complete hscan]
        rw [hflags, hcommand, parse_inline hvalue hinline, parse_inline hvalue hinline]
        exact hrest _ _
      · cases rest with
        | nil =>
          have hflags : flagTokens [arg] = [arg] := by simp [flagTokens, takes_lone hscan]
          rw [hflags, parse_lone hvalue hinline, parse_lone hvalue hinline]
          rfl
        | cons value rest =>
          have hflags : flagTokens (arg :: value :: rest) = arg :: value :: flagTokens rest := by
            simp [flagTokens, takes_needsValue hscan]
          have hcommand : commandTokens (arg :: value :: rest) = commandTokens rest := by
            simp [commandTokens, takes_needsValue hscan]
          rw [hflags, hcommand, parse_value hvalue hinline, parse_value hvalue hinline]
          exact ih rest.length (by simp only [List.length_cons]; omega) _ _ rest rfl
    · rcases hcase with ⟨on, hparse, hscan⟩ | ⟨hparse, hscan⟩
      · have hflags : flagTokens (arg :: rest) = arg :: flagTokens rest := by
          simp [flagTokens, takes_complete hscan]
        have hcommand : commandTokens (arg :: rest) = commandTokens rest := by
          simp [commandTokens, takes_complete hscan]
        rw [hflags, hcommand, parse_switch hvalue hbool hparse, parse_switch hvalue hbool hparse]
        exact hrest _ _
      · have hflags : flagTokens (arg :: rest) = [arg] := by
          simp [flagTokens, takes_invalid hscan]
        rw [hflags, parse_invalid hvalue hbool hparse, parse_invalid hvalue hbool hparse]
        rfl
    · have hpassed : isGlobalFlag arg = false := by simp [isGlobalFlag, hscan]
      have hflags : flagTokens (arg :: rest) = flagTokens rest := by
        simp [flagTokens, takes_passed hpassed]
      have hcommand : commandTokens (arg :: rest) = arg :: commandTokens rest := by
        simp [commandTokens, takes_passed hpassed]
      rw [hflags, hcommand, parse_passed hvalue hbool, hrest]
      simp

/-- The values of a command's options and the operands behind `--` reach the command exactly
if none of them is spelled as a global flag. In any case the flags are set by the flag
arguments alone, and the command receives the others. -/
theorem own_arguments_pass_iff (specs : OptionSpecs) (args : List String) :
    (OwnPassed (reading specs args) (takes args) ↔ OwnSpelled (reading specs args) args) ∧
      parseGlobalFlags args =
        (parseGlobalFlags (flagTokens args)).map fun parsed => (parsed.1, commandTokens args) :=
  ⟨reading_iff specs args, parseGlobalFrom_eq {} [] args⟩

def updateSpecs : OptionSpecs := fun name =>
  if ["id", "display-name", "description", "category", "tags", "support-platforms",
    "astrbot-version"].contains name then some ⟨true, false⟩ else none

def describedArgs : List String :=
  ["plugin", "update", "demo", "--description", "--yes", "--category", "tools"]

/-- A description `--yes` confirms the command, and the next option becomes the description. -/
theorem description_taken :
    (reading updateSpecs describedArgs)[4]? = some .optionValue ∧
      (takes describedArgs)[4]? = some .flag ∧
      parseGlobalFlags describedArgs = .ok ({ yes := true },
        ["plugin", "update", "demo", "--description", "--category", "tools"]) ∧
      (parseLocalOptions ["demo", "--description", "--category", "tools"] updateSpecs).toOption.map
          (fun parsed => (parsed.1 "description", parsed.2)) =
        some (["--category"], ["demo", "tools"]) :=
  ⟨by decide +kernel, by decide +kernel, by decide +kernel, by decide +kernel⟩

end PluginRegistry
