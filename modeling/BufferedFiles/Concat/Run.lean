import BufferedFiles.Concat.Copy
import BufferedFiles.Concat.Options
import BufferedFiles.Concat.Usage
import BufferedFiles.Console

/-!
# Running the tool

The output is opened before any input. The inputs are copied one after the other; the first failure
ends the run. Whatever is open then is let go, the input before the output, so that what was accepted
still arrives.
-/
namespace BufferedFiles.Concat

namespace Failure

/-- A text with the cause below it. -/
def withCause (text : String) (cause : HandleError) : String :=
  "Error: " ++ text ++ "\n\nCaused by:\n    " ++ cause.message ++ "\n"

def text : Failure → String
  | .settings cause => "Error: " ++ cause.message ++ "\n"
  | .openOutput path cause => withCause ("Failed to open output " ++ path) cause
  | .openInput path cause => withCause ("Failed to open " ++ path) cause
  | .read path cause => withCause ("Failed to read " ++ path) cause
  | .write path cause => withCause ("Failed to write " ++ path) cause
  | .nothingAccepted path => "Error: " ++ path ++ " accepted no bytes\n"
  | .closeInput path cause => withCause ("Failed to close " ++ path) cause
  | .closeOutput path cause => withCause ("Failed to close output " ++ path) cause
  | .flush path cause => withCause ("Failed to flush " ++ path) cause

end Failure

def openEvents (h : Handle) : List Event :=
  [.streamOpened h.path h.mode, .fileOpened h.path h.mode] ++
    (match h.stream.map Stream.discipline with
    | some .line => [.disciplineSet .line]
    | some .unbuffered => [.disciplineSet .unbuffered]
    | _ => [])

def closeEvents (h : Handle) (well : Bool) : List Event :=
  [.closing h.path] ++
    (match h.stream.bind Stream.held with
    | some cause => [.heldDiscarded cause]
    | none => []) ++ [.streamClosed well]

def closeWell : Except HandleError Unit → Bool
  | .ok () => true
  | .error _ => false

def releaseEvents (h : Handle) (result : Except HandleError Unit) : List Event :=
  .releasing h.path :: closeEvents h (closeWell result) ++
    (match result with
    | .ok () => []
    | .error e => [.releaseFailed h.path e])

/-- What a run has in hands between two inputs. -/
structure Job where
  standardInput : Handle
  sink : Handle
  system : System
  events : List Event
  deriving DecidableEq, Repr

namespace Job

def work (j : Job) (source : Handle) : Work := ⟨source, j.sink, j.system, j.events⟩

def after (j : Job) (w : Work) : Job :=
  { j with sink := w.sink, system := w.system, events := w.events }

def tell (j : Job) (events : List Event) : Job :=
  { j with events := events.reverse ++ j.events }

/-- Closes an input that was read to its end. -/
def closeInput (j : Job) (path : String) (source : Handle) : Job × Except Failure Unit :=
  let r := source.close j.system
  ({ j with system := r.system }.tell (closeEvents source (closeWell r.result)),
    r.result.mapError (.closeInput path))

/-- Lets go of an input whose copy failed. -/
def releaseInput (j : Job) (source : Handle) : Job :=
  let r := source.close j.system
  { j with system := r.system }.tell (releaseEvents source r.result)

/-- Copies one input and counts its bytes. -/
def takeInput (s : Settings) (j : Job) (input : String) : Job × Except Failure Nat :=
  if input = standardMark then
    let (w, result) := (j.work j.standardInput).copy s
    ({ j.after w with standardInput := w.source }, result)
  else
    match Handle.openPath j.system (toBytes input) "r" none with
    | (sys, .error e) => ({ j with system := sys }, .error (.openInput input e))
    | (sys, .ok source) =>
      let (w, result) := (({ j with system := sys }.tell (openEvents source)).work source).copy s
      match result with
      | .error e => ((j.after w).releaseInput w.source, .error e)
      | .ok n =>
        match (j.after w).closeInput input w.source with
        | (j, .error e) => (j, .error e)
        | (j, .ok ()) => (j, .ok n)

/-- Copies inputs in order and counts all bytes. -/
def takeInputs (s : Settings) : Job → List String → Nat → Job × Except Failure Nat
  | j, [], total => (j, .ok total)
  | j, input :: rest, total =>
    match j.takeInput s input with
    | (j, .error e) => (j, .error e)
    | (j, .ok n) => takeInputs s j rest (total + n)

end Job

/-- What a run leaves: the number of bytes copied or why it failed, the events, the latest first,
and the system. -/
structure Ending where
  result : Except Failure Nat
  events : List Event
  system : System

/-- Copies to a file. -/
def runTo (s : Settings) (path : String) (console : Console) (sys : System) :
    Console × Ending :=
  match Handle.openPath sys (toBytes path) s.sinkMode s.buffering with
  | (sys, .error e) => (console, ⟨.error (.openOutput path e), [], sys⟩)
  | (sys, .ok sink) =>
    let (j, result) := Job.takeInputs s ⟨console.get .input, sink, sys, (openEvents sink).reverse⟩
      s.inputs 0
    let r := j.sink.close j.system
    let events := match result with
      | .error _ => releaseEvents j.sink r.result
      | .ok _ => closeEvents j.sink (closeWell r.result)
    (console.set .input j.standardInput,
      ⟨match result, r.result with
        | .error e, _ => .error e
        | .ok _, .error e => .error (.closeOutput path e)
        | .ok n, .ok () => .ok n,
        events.reverse ++ j.events, r.system⟩)

/-- Copies to standard output. -/
def runOut (s : Settings) (console : Console) (sys : System) : Console × Ending :=
  let (j, result) := Job.takeInputs s ⟨console.get .input, console.get .output, sys, []⟩
    s.inputs 0
  let console := console.set .input j.standardInput
  match result with
  | .error e => (console.set .output j.sink, ⟨.error e, j.events, j.system⟩)
  | .ok n =>
    let r := j.sink.flush j.system
    (console.set .output r.handle,
      match r.result with
      | .error e => ⟨.error (.flush r.handle.path e), j.events, r.system⟩
      | .ok () => ⟨.ok n, .flushed r.handle.path :: j.events, r.system⟩)

/-- Runs with settings that were checked. -/
def runChecked (s : Settings) (console : Console) (sys : System) : Console × Ending :=
  match s.output with
  | some path => runTo s path console sys
  | none => runOut s console sys

/-- What a program leaves when it has ended: its exit code, its messages and the system. -/
structure Report where
  exitCode : Nat
  messages : String
  system : System

namespace Ending

/-- The messages of a run: the events that are shown, then the failure. -/
def messages (e : Ending) (s : Settings) : String :=
  match e.result with
  | .error failure => shown s.level e.events.reverse ++ failure.text
  | .ok n => shown s.level (e.events.reverse ++ [.copied n s.inputs.length])

def exitCode (e : Ending) : Nat :=
  match e.result with
  | .error _ => 1
  | .ok _ => 0

end Ending

/-- Runs with settings put together in any way. -/
def run (s : Settings) (sys : System) : Report :=
  match s.check with
  | .error e => ⟨1, Failure.text (.settings e), sys⟩
  | .ok () =>
    let (console, ending) := runChecked s (Console.prepare {}) sys
    ⟨ending.exitCode, ending.messages s, console.settle ending.system⟩

namespace Stop

def message : Stop → String
  | .unknownArgument => "unexpected argument found"
  | .unexpectedValue => "a value is given to an option that takes none"
  | .missingValue => "a value is required for an option but none was supplied"
  | .emptyValue => "an empty value is given to an option"
  | .unreadableNumber => "a value is not a number in range"
  | .repeated => "an option that may be given once is repeated"
  | .outputRequired => "an option is given that needs --output"
  | .help | .version => ""

/-- The code a program ends with where the reading of its arguments stopped. -/
def exitCode : Stop → Nat
  | .help | .version => 0
  | _ => 2

def output : Stop → String
  | .help => Usage.help
  | .version => Usage.version
  | _ => ""

/-- What is printed to the messages. -/
def messages (stop : Stop) : String :=
  if stop.exitCode = 0 then "" else "error: " ++ stop.message ++ "\n"

end Stop

/-- Prints a text to standard output without a stream. -/
def print (text : String) (sys : System) : System :=
  (sys.writeAll 1 (toBytes text).length (toBytes text)).1

/-- The whole tool, from its arguments on. -/
def invoke (arguments : List String) (sys : System) : Report :=
  match Settings.parse arguments with
  | .error stop => ⟨stop.exitCode, stop.messages, print stop.output sys⟩
  | .ok s => run s sys

end BufferedFiles.Concat
