/-
  File:      CodeAtlas/Command/Switch.lean
  Subject:   The switches of a command line, and which arguments name one.

  A switch has short names (`-v`) and long ones (`--verbose`). A long name may be
  cut short as long as only one name starts like that. A value may be attached:
  after an equals sign, or directly after a short name.

  * `Switch`: a switch.
  * `UsageFault`: why a command line is not understood.
  * `mark`: what an argument is: plain, the two dashes that end the switches, a
    switch, or a stranger that looks like one.
-/
import CodeAtlas.Text.Numeral
import CodeAtlas.Text.Quoted

namespace CodeAtlas.Command

/-- What a switch is for. -/
inductive Role where
  | help
  | verbose
  | logFile
  | sourceFolder
  | inclusion
  | exclusion
  | destination
  | apiVersion
  | templateFolder
  deriving DecidableEq, Repr

/-- A switch. -/
structure Switch where
  role : Role
  names : List Text
  takesValue : Bool
  deriving DecidableEq, Repr

/-- All names of a switch. -/
def Switch.title (switch : Switch) : Text := Text.join ['/'] switch.names

/-- Why a command line is not understood. -/
inductive UsageFault where
  | ambiguous (argument : Text) (matching : List Text)
  | valueMissing (switch : Switch)
  | valueIgnored (switch : Switch) (value : Text)
  | unknownCommand (word : Text) (known : List Text)
  | commandMissing
  | unrecognized (arguments : List Text)
  deriving DecidableEq, Repr

namespace UsageFault

/-- The wording of a fault of an argument. -/
def about (title what : Text) : Text := "argument " ++ title ++ ": " ++ what

/-- The wording of a fault. -/
def message : UsageFault → Text
  | .ambiguous argument matching =>
    "ambiguous option: " ++ argument ++ " could match " ++ Text.join ", " matching
  | .valueMissing switch => about switch.title "expected one argument"
  | .valueIgnored switch value =>
    about switch.title ("ignored explicit argument " ++ Text.quoted value)
  | .unknownCommand word known =>
    about "command" ("invalid choice: " ++ Text.quoted word ++ " (choose from " ++
      Text.join ", " (known.map Text.quoted) ++ ")")
  | .commandMissing => "the following arguments are required: command"
  | .unrecognized arguments => "unrecognized arguments: " ++ Text.join [' '] arguments

end UsageFault

/-! ## 1. Attached values -/

/-- A switch found in an argument, under one of its names, and the value attached to it. -/
structure Hit where
  switch : Switch
  name : Text
  attached : Option Text
  deriving DecidableEq, Repr

/-- What an argument is. -/
inductive Mark where
  | plain
  /-- The two dashes after which there are no switches. -/
  | dashes
  | hit (hit : Hit)
  /-- An argument that looks like a switch and is none. -/
  | stranger
  deriving DecidableEq, Repr

/-- All names with their switches, in order. -/
def nameTable (switches : List Switch) : List (Text × Switch) :=
  switches.flatMap fun switch => switch.names.map fun name => (name, switch)

/-- An argument up to its first equals sign, and what follows as a value. -/
def splitValue (argument : Text) : Text × Option Text :=
  match Text.cut? ['='] argument with
  | some (before, after) => (before, some after)
  | none => (argument, none)

/-! ## 2. Marks -/

/-- The switches that an argument could mean by a cut name or by a short name with a value. -/
def candidates (switches : List Switch) (argument : Text) : List Hit :=
  match argument with
  | '-' :: '-' :: _ =>
    let (start, attached) := splitValue argument
    (nameTable switches).filterMap fun (name, switch) =>
      if start.isPrefixOf name then some ⟨switch, name, attached⟩ else none
  | _ =>
    (nameTable switches).filterMap fun (name, switch) =>
      if name == argument.take 2 then some ⟨switch, name, some (argument.drop 2)⟩
      else if argument.isPrefixOf name then some ⟨switch, name, none⟩
      else none

/-- Whether an argument is a negative number. A line feed may follow it. -/
def isNegativeNumber : Text → Bool
  | '-' :: rest =>
    let digits := if rest.getLast? == some '\n' then rest.dropLast else rest
    match Text.cut? ['.'] digits with
    | some (whole, fraction) =>
      whole.all Text.isDecimal && !fraction.isEmpty && fraction.all Text.isDecimal
    | none => !digits.isEmpty && digits.all Text.isDecimal
  | _ => false

/-- What an argument is that no name and no attached value explains. -/
def markUnknown (argument : Text) : Mark :=
  if isNegativeNumber argument || argument.contains ' ' then .plain else .stranger

/-- What an argument is. -/
def mark (switches : List Switch) (argument : Text) : Except UsageFault Mark :=
  let names := nameTable switches
  let (start, attached) := splitValue argument
  if argument.head? != some '-' then .ok .plain
  else
    match names.lookup argument with
    | some switch => .ok (.hit ⟨switch, argument, none⟩)
    | none =>
      if argument.length == 1 then .ok .plain
      else
        match names.lookup start, attached with
        | some switch, some value => .ok (.hit ⟨switch, start, some value⟩)
        | _, _ =>
          match candidates switches argument with
          | [] => .ok (markUnknown argument)
          | [hit] => .ok (.hit hit)
          | hits => .error (.ambiguous argument (hits.map (·.name)))

/-- The arguments with their marks. After two dashes everything is plain. -/
def markAll (switches : List Switch) : List Text → Except UsageFault (List (Text × Mark))
  | [] => .ok []
  | argument :: rest => do
    if argument == ['-', '-'] then
      .ok ((argument, .dashes) :: rest.map fun plain => (plain, .plain))
    else
      let first ← mark switches argument
      .ok ((argument, first) :: (← markAll switches rest))

end CodeAtlas.Command
