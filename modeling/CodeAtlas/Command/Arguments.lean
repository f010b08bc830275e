/-
  File:      CodeAtlas/Command/Arguments.lean
  Subject:   Sorting the arguments of a command line.

  * `Arguments`: the switches that were given, the operand, and what is left over.
  * `Arguments.sort`: sorts arguments. Switches are taken in order, and the call
    for help ends the sorting at once.
-/
import CodeAtlas.Command.Switch

namespace CodeAtlas.Command

/-- Why sorting ends early. -/
inductive Stop where
  | help
  | fault (fault : UsageFault)
  deriving DecidableEq, Repr

/-- How many arguments the operand takes. -/
inductive Operand where
  /-- One, if there is one. -/
  | one
  /-- The first one, and everything after it. -/
  | rest
  deriving DecidableEq, Repr

/-- Sorted arguments. -/
structure Arguments where
  given : List (Role × Text)
  operand : Option (List Text)
  extras : List Text
  deriving DecidableEq, Repr

/-- What a switch takes: the switches given by its argument, and the arguments after it. -/
structure Taken where
  given : List (Role × Text)
  rest : List (Text × Mark)

/-! ## 1. Switches -/

/-- A switch with nothing attached. -/
def takeBare (switch : Switch) (rest : List (Text × Mark)) : Except UsageFault Taken :=
  if switch.takesValue then
    match rest with
    | (value, .plain) :: rest => .ok ⟨[(switch.role, value)], rest⟩
    | _ => .error (.valueMissing switch)
  else .ok ⟨[(switch.role, [])], rest⟩

/-- A switch with something attached, which is its value if it takes one. Short switches without
values may be written together: what is attached to one is then the next, and what is attached
to the next. -/
def takeAttached (switches : List Switch) (rest : List (Text × Mark)) (switch : Switch)
    (short : Bool) : (attached : Text) → Except UsageFault Taken
  | [] =>
    if switch.takesValue then .ok ⟨[(switch.role, [])], rest⟩
    else .error (.valueIgnored switch [])
  | c :: tail =>
    if switch.takesValue then .ok ⟨[(switch.role, c :: tail)], rest⟩
    else
      match if short then (nameTable switches).lookup ['-', c] else none with
      | none => .error (.valueIgnored switch (c :: tail))
      | some next => do
        let taken ←
          if tail.isEmpty then takeBare next rest
          else takeAttached switches rest next short tail
        .ok { taken with given := (switch.role, []) :: taken.given }

/-- A switch with its value. -/
def takeHit (switches : List Switch) (hit : Hit) (rest : List (Text × Mark)) :
    Except UsageFault Taken :=
  match hit.attached with
  | none => takeBare hit.switch rest
  | some attached =>
    takeAttached switches rest hit.switch (hit.name.take 2 != ['-', '-']) attached

/-! ## 2. The operand -/

/-- The arguments of the operand and those after it. Two dashes may stand before it. -/
def takeOperand (operand : Operand) (marked : List (Text × Mark)) :
    Option (List Text × List (Text × Mark)) :=
  let isDashes (argument : Text × Mark) : Bool := argument.2 == .dashes
  let before := marked.takeWhile isDashes
  let rest := marked.drop before.length
  match operand, rest with
  | .rest, (_, .plain) :: _ => some (marked.map (·.1), [])
  | .rest, _ => none
  | .one, (word, .plain) :: rest =>
    let after := rest.takeWhile isDashes
    some (before.map (·.1) ++ word :: after.map (·.1), rest.drop after.length)
  | .one, rest => some (before.map (·.1), rest)

/-- The word that an operand of one argument is: the first two dashes do not count. -/
def operandWord (arguments : List Text) : Option Text := (arguments.erase ['-', '-']).head?

/-! ## 3. Sorting -/

/-- Whether an argument is a switch or looks like one. -/
def isSwitch (argument : Text × Mark) : Bool :=
  match argument.2 with
  | .hit _ | .stranger => true
  | .plain | .dashes => false

/-- Adds switches before others. -/
def Arguments.withGiven (sorted : Arguments) (given : List (Role × Text)) : Arguments :=
  { sorted with given := given ++ sorted.given }

/-- Adds an argument that is left over before others. -/
def Arguments.withExtra (sorted : Arguments) (argument : Text) : Arguments :=
  { sorted with extras := argument :: sorted.extras }

/-- Sorts marked arguments; `free` tells that the operand has not been found. An operand that
is left for the end may be empty. `fuel` bounds the number of steps, each of which uses up an
argument. -/
def sortMarked (switches : List Switch) (operand : Operand) :
    (fuel : Nat) → (free : Bool) → List (Text × Mark) → Except Stop Arguments
  | 0, _, marked => .ok ⟨[], none, marked.map (·.1)⟩
  | fuel + 1, free, marked =>
    let found := if free then takeOperand operand marked else none
    if !marked.any isSwitch then
      match found with
      | some (words, rest) => .ok ⟨[], some words, rest.map (·.1)⟩
      | none => .ok ⟨[], none, marked.map (·.1)⟩
    else
      match marked with
      | [] => .ok ⟨[], none, []⟩
      | (_, .hit hit) :: rest => do
        let taken ← (takeHit switches hit rest).mapError Stop.fault
        if taken.given.any (·.1 == .help) then .error .help
        else
          let sorted ← sortMarked switches operand fuel free taken.rest
          .ok (sorted.withGiven taken.given)
      | (argument, .stranger) :: rest => do
        let sorted ← sortMarked switches operand fuel free rest
        .ok (sorted.withExtra argument)
      | (argument, _) :: rest =>
        match found with
        | some (words, rest) => do
          let sorted ← sortMarked switches operand fuel false rest
          .ok { sorted with operand := some words }
        | none => do
          let sorted ← sortMarked switches operand fuel free rest
          .ok (sorted.withExtra argument)

/-- Sorts arguments. -/
def Arguments.sort (switches : List Switch) (operand : Operand) (arguments : List Text) :
    Except Stop Arguments := do
  let marked ← (markAll switches arguments).mapError Stop.fault
  sortMarked switches operand (marked.length + 1) true marked

end CodeAtlas.Command
