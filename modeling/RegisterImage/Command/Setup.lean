import RegisterImage.Command.Arguments
import RegisterImage.Command.Configuration
import RegisterImage.Command.Failure
import RegisterImage.Image.Header
import RegisterImage.Overlay
import RegisterImage.Text.Utf8

/-!
# Setups

A setup is what a configuration file and a command line say together. The command line wins,
except that lists are joined and that either of them may switch something on.

## Main definitions

* `Command` — a command with what it works on.
* `Setup` — everything else that is said.
* `Setup.load` — the setup of a command line, the configuration file read.
-/

namespace RegisterImage

inductive Format where
  | text
  | json
  deriving DecidableEq, Repr

def Format.ofInvocation (i : Invocation) : Format :=
  if i.value? .format = some "json" then json else text

inductive Command where
  | info (image : String)
  | entries (image : String) (format : Format)
  | plan (format : Format)
  | build (image : String)
  | import (image : String)
  | header (output : String)
  deriving DecidableEq, Repr

def Command.ofInvocation (i : Invocation) : Command :=
  match i.name with
  | .info => info i.image
  | .entries => entries i.image (.ofInvocation i)
  | .plan => plan (.ofInvocation i)
  | .build => build i.image
  | .import => .import i.image
  | .header => header ((i.value? .output).getD "")

structure Setup where
  registers : Option String
  variant : Option String
  hide : HideList
  profile : Option String
  /-- Values that are applied after those of the profile. -/
  values : Entries
  /-- The name that images and profiles are given; empty to take that of the profile. -/
  profileName : String
  info : Info
  output : Option String
  ignoreChecksum : Bool
  chip : Option Chip
  quiet : Bool

namespace Setup

def infoOf (i : Invocation) (c : Configuration) : Info :=
  if i.has .noInfo || (!i.has .customInfo && c.omitInfo) then .omitted
  else .ofText (i.value? .customInfo <|> c.customInfo)

/-- The chip in a configuration has to be known, whatever the command line says. -/
def configChip (c : Configuration) : Except Failure (Option Chip) :=
  c.chip.mapM fun name => (Chip.resolve name).mapError .configChip

def merge (i : Invocation) (c : Configuration) : Except Failure Setup := do
  let chip ← configChip c
  return {
    registers := i.value? .registers <|> c.registers
    variant := i.value? .variant <|> c.variant
    hide := ⟨c.hideGroups ++ i.values .hideGroup, c.hideItems ++ i.values .hideItem⟩
    profile := i.value? .profile <|> c.profile
    values := c.values
    profileName := (i.value? .profileName).getD c.profileName
    info := infoOf i c
    output := i.value? .output <|> c.output
    ignoreChecksum := i.has .ignoreChecksum || c.ignoreChecksum
    chip := (i.value? .chip).bind Chip.ofOption? <|> chip
    quiet := i.has .quiet || c.quiet }

end Setup

/-- The text in a file. -/
def Files.text (files : Files) (path : String) : Except SystemFault String := do
  match decodeUtf8? (← files path) with
  | some text => return text
  | none => throw .notUtf8

namespace Configuration

def load (files : Files) (path : String) : Except Failure Configuration := do
  let text ← (files.text path).mapError (.configUnreadable path)
  match ofText? text with
  | some c => return c
  | none => throw (.configMalformed path)

end Configuration

def Setup.load (files : Files) (i : Invocation) : Except Failure Setup := do
  let configuration ← (i.value? .config).mapM (Configuration.load files)
  merge i (configuration.getD .empty)

end RegisterImage
