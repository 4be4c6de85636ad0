import BufferedFiles.Discipline

/-!
# Settings of the concatenation

What is read, where it goes, and how. Settings put together in any way are checked before anything is
opened.
-/
namespace BufferedFiles.Concat

/-- How much a message matters; the settings say from which level on messages are shown. -/
inductive Level where
  | error | warning | information | detail | trace
  deriving DecidableEq, Repr

namespace Level

def rank : Level → Nat
  | .error => 0
  | .warning => 1
  | .information => 2
  | .detail => 3
  | .trace => 4

def label : Level → String
  | .error => "ERROR"
  | .warning => "WARN"
  | .information => "INFO"
  | .detail => "DEBUG"
  | .trace => "TRACE"

end Level

/-- A chunk size of 0 asks for the default. -/
structure Settings where
  inputs : List String
  output : Option String := none
  append : Bool := false
  buffering : Option Int := none
  chunkSize : Nat := 0
  lines : Bool := false
  verbose : Nat := 0
  quiet : Bool := false
  deriving DecidableEq, Repr

/-- Why settings are refused. -/
inductive SettingsError where
  | noInput
  | buffering (cause : HandleError)
  | bufferingWithoutOutput
  | appendWithoutOutput
  | quietAndVerbose
  deriving DecidableEq, Repr

namespace SettingsError

def message : SettingsError → String
  | .noInput => "At least one input is required"
  | .buffering cause => cause.message
  | .bufferingWithoutOutput => "--buffering only applies together with --output"
  | .appendWithoutOutput => "--append only applies together with --output"
  | .quietAndVerbose => "Cannot use both --quiet and --verbose options"

end SettingsError

/-- The input that stands for standard input. -/
def standardMark : String := "-"

namespace Settings

def sinkMode (s : Settings) : String := if s.append then "a" else "w"

/-- The bound of each read. -/
def bound (s : Settings) : Option Nat :=
  if s.chunkSize = 0 then none else some s.chunkSize

def level (s : Settings) : Level :=
  if s.quiet then .error
  else match s.verbose with
  | 0 => .warning
  | 1 => .information
  | 2 => .detail
  | _ => .trace

def checkBuffering (s : Settings) : Except SettingsError Unit :=
  match s.buffering with
  | none => .ok ()
  | some value =>
    match Buffering.ofInt value with
    | .error e => .error (.buffering e)
    | .ok _ => if s.output.isNone then .error .bufferingWithoutOutput else .ok ()

def check (s : Settings) : Except SettingsError Unit :=
  if s.inputs.isEmpty then .error .noInput
  else match s.checkBuffering with
  | .error e => .error e
  | .ok () =>
    if s.append && s.output.isNone then .error .appendWithoutOutput
    else if s.quiet && 0 < s.verbose then .error .quietAndVerbose
    else .ok ()

end Settings

end BufferedFiles.Concat
