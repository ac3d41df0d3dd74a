import RegisterImage.Chip

/-!
# Command-line arguments

A command line has options, then the name of a command, then the options and the operand of
the command. General options may stand on either side of the name; the ones after it count
when both sides have them. An option is written `--name value`, `--name=value`, `-n value`,
`-nvalue` or `-n=value`; short options without a value may share one dash. An option that is
not a list is given at most once on either side.

## Main definitions

* `Switch` — the options there are.
* `CommandName` — the commands there are.
* `Invocation` — an accepted command line.
* `Invocation.ofArguments` — the command line of a list of arguments.
-/

namespace RegisterImage

/-! ## Options and commands -/

inductive Switch where
  | config
  | registers
  | variant
  | hideGroup
  | hideItem
  | profile
  | profileName
  | customInfo
  | noInfo
  | quiet
  | format
  | output
  | ignoreChecksum
  | chip
  | help
  | version
  deriving DecidableEq, Repr

inductive CommandName where
  | info
  | entries
  | plan
  | build
  | import
  | header
  deriving DecidableEq, Repr

namespace Switch

def long : Switch → String
  | config => "config"
  | registers => "registers"
  | variant => "variant"
  | hideGroup => "hide-group"
  | hideItem => "hide-item"
  | profile => "profile"
  | profileName => "profile-name"
  | customInfo => "custom-info"
  | noInfo => "no-info"
  | quiet => "quiet"
  | format => "format"
  | output => "output"
  | ignoreChecksum => "ignore-checksum"
  | chip => "chip"
  | help => "help"
  | version => "version"

def short? : Switch → Option Char
  | config => some 'f'
  | registers => some 'r'
  | profile => some 'p'
  | customInfo => some 'i'
  | quiet => some 'q'
  | output => some 'o'
  | chip => some 'c'
  | help => some 'h'
  | version => some 'V'
  | _ => none

def takesValue : Switch → Bool
  | noInfo | quiet | ignoreChecksum | help | version => false
  | _ => true

def isList : Switch → Bool
  | hideGroup | hideItem => true
  | _ => false

/-- Whether a value may be given. -/
def admits (o : Switch) (value : String) : Bool :=
  match o with
  | format => value = "text" || value = "json"
  | chip => (Chip.ofOption? value).isSome
  | _ => true

/-- The options that may stand on either side of the name of the command. -/
def general : List Switch :=
  [registers, variant, hideGroup, hideItem, profile, profileName, customInfo, noInfo, quiet, help]

end Switch

namespace CommandName

def ofText? : String → Option CommandName
  | "info" => some info
  | "entries" => some entries
  | "plan" => some plan
  | "build" => some build
  | "import" => some .import
  | "header" => some header
  | _ => none

/-- The options of a command, the general ones among them. -/
def switches : CommandName → List Switch
  | info => Switch.general
  | entries | plan => .format :: Switch.general
  | build => .output :: .ignoreChecksum :: Switch.general
  | .import => .output :: Switch.general
  | header => .chip :: .output :: Switch.general

/-- Whether a command works on an image. -/
def takesImage : CommandName → Bool
  | plan | header => false
  | _ => true

def required : CommandName → List Switch
  | header => [.output]
  | _ => []

end CommandName

/-! ## Scanning -/

/-- Why a command line is not carried out. -/
inductive Refusal where
  | rejected
  | helpAsked
  deriving DecidableEq, Repr

/-- The options given on one side of the name of the command, and the operands. -/
structure Side where
  given : List (Switch × String)
  operands : List String
  deriving DecidableEq, Repr

namespace Side

def empty : Side :=
  ⟨[], []⟩

def has (side : Side) (o : Switch) : Bool :=
  side.given.any (·.1 = o)

def values (side : Side) (o : Switch) : List String :=
  (side.given.filter (·.1 = o)).map (·.2)

/-- One more option. Asking for help ends the scan. -/
def give (side : Side) (o : Switch) (value : String) : Except Refusal Side :=
  if o = .help ∨ o = .version then .error .helpAsked
  else if !o.admits value ∨ (side.has o ∧ !o.isList) then .error .rejected
  else .ok { side with given := side.given ++ [(o, value)] }

def operate (side : Side) (maxOperands : Nat) (operand : String) : Except Refusal Side :=
  if side.operands.length < maxOperands then
    .ok { side with operands := side.operands ++ [operand] }
  else .error .rejected

end Side

/-- An argument taken apart. -/
inductive Argument where
  /-- Two dashes alone, after which everything is an operand. -/
  | escape
  | long (name : String) (value : Option String)
  | short (cluster : List Char)
  | operand (text : String)
  deriving DecidableEq, Repr

/-- A text before and after its first equals sign. -/
def splitAtEquals (s : List Char) : List Char × Option (List Char) :=
  (s.takeWhile (· ≠ '='), ((s.dropWhile (· ≠ '=')).tail?))

def Argument.ofText (s : String) : Argument :=
  match s.toList with
  | ['-', '-'] => escape
  | '-' :: '-' :: s =>
    let (name, value) := splitAtEquals s
    long (String.ofList name) (value.map String.ofList)
  | '-' :: c :: s => short (c :: s)
  | _ => operand s

/-- The value of an option is the next argument, which may not look like an option. -/
def nextValue : List String → Except Refusal (String × List String)
  | [] => .error .rejected
  | s :: rest =>
    match Argument.ofText s with
    | .operand _ => .ok (s, rest)
    | _ => .error .rejected

/-- Short options that share a dash. The first that takes a value takes the rest, or else the
next argument. -/
def giveShort (known : List Switch) (rest : List String) :
    List Char → Side → Except Refusal (Side × List String)
  | [], side => .ok (side, rest)
  | c :: cs, side =>
    match known.find? (·.short? = some c) with
    | none => .error .rejected
    | some o =>
      if o.takesValue then
        match cs with
        | [] => do
          let (value, rest) ← nextValue rest
          return (← side.give o value, rest)
        | '=' :: value => do return (← side.give o (String.ofList value), rest)
        | value => do return (← side.give o (String.ofList value), rest)
      else do giveShort known rest cs (← side.give o "")

def giveLong (known : List Switch) (name : String) (value : Option String) (rest : List String)
    (side : Side) : Except Refusal (Side × List String) :=
  match known.find? (·.long = name) with
  | none => .error .rejected
  | some o =>
    match o.takesValue, value with
    | true, some value => do return (← side.give o value, rest)
    | true, none => do
      let (value, rest) ← nextValue rest
      return (← side.give o value, rest)
    | false, some _ => .error .rejected
    | false, none => do return (← side.give o "", rest)

/-- The options up to the name of the command, the name, and the arguments after it. -/
def scanGeneral (known : List Switch) :
    Nat → Side → List String → Except Refusal (Side × String × List String)
  | 0, _, _ => .error .rejected
  | _ + 1, _, [] => .error .rejected
  | fuel + 1, side, s :: rest =>
    match Argument.ofText s with
    | .escape => .error .rejected
    | .long name value => do
      let (side, rest) ← giveLong known name value rest side
      scanGeneral known fuel side rest
    | .short cluster => do
      let (side, rest) ← giveShort known rest cluster side
      scanGeneral known fuel side rest
    | .operand name => .ok (side, name, rest)

/-- The options and operands of a command. -/
def scanCommand (known : List Switch) (maxOperands : Nat) :
    Nat → Side → List String → Except Refusal Side
  | 0, _, _ => .error .rejected
  | _ + 1, side, [] => .ok side
  | fuel + 1, side, s :: rest =>
    match Argument.ofText s with
    | .escape => rest.foldlM (·.operate maxOperands ·) side
    | .long name value => do
      let (side, rest) ← giveLong known name value rest side
      scanCommand known maxOperands fuel side rest
    | .short cluster => do
      let (side, rest) ← giveShort known rest cluster side
      scanCommand known maxOperands fuel side rest
    | .operand text => do
      scanCommand known maxOperands fuel (← side.operate maxOperands text) rest

/-! ## Command lines -/

/-- An accepted command line. -/
structure Invocation where
  name : CommandName
  /-- The options before the name and those after it. -/
  before : Side
  after : Side
  deriving DecidableEq, Repr

namespace Invocation

/-- The values of an option: those after the name, or else those before it. -/
def values (i : Invocation) (o : Switch) : List String :=
  if i.after.has o then i.after.values o else i.before.values o

def value? (i : Invocation) (o : Switch) : Option String :=
  (i.values o).head?

def has (i : Invocation) (o : Switch) : Bool :=
  i.after.has o || i.before.has o

/-- The image that the command works on. -/
def image (i : Invocation) : String :=
  i.after.operands.headD ""

def asksHelp (arguments : List String) : Bool :=
  match arguments with
  | [] => true
  | [name] => name = "help" || (CommandName.ofText? name).isSome
  | _ => false

def ofArguments (arguments : List String) : Except Refusal Invocation := do
  let known := .config :: .version :: Switch.general
  let (before, name, rest) ← scanGeneral known (arguments.length + 1) .empty arguments
  match CommandName.ofText? name with
  | none => .error (if name = "help" ∧ asksHelp rest then .helpAsked else .rejected)
  | some name =>
    let operands := if name.takesImage then 1 else 0
    let after ← scanCommand name.switches operands (rest.length + 1) .empty rest
    if after.operands.length = operands ∧ name.required.all after.has then
      return { name, before, after }
    else .error .rejected

end Invocation

end RegisterImage
