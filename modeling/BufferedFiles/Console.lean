import BufferedFiles.Handle.Basic

/-!
# The console

A program starts with three descriptors open, 0 to read its input and 1 and 2 to write its output
and its messages. Each has a stream that was there before any other, so none of them is counted, and
a handle under a fixed path and mode. A handle is made when it is first asked for, and stays the
same one from then on. Messages are not buffered.
-/
namespace BufferedFiles

inductive ConsoleName where
  | input | output | messages
  deriving DecidableEq, Repr

/-- The handles of the console that were made so far. -/
structure Console where
  input : Option Handle := none
  output : Option Handle := none
  messages : Option Handle := none
  deriving DecidableEq, Repr

namespace ConsoleName

/-- Where the device behind a descriptor of the console is found. -/
def place : ConsoleName → List Name
  | .input => [toBytes "dev", toBytes "stdin"]
  | .output => [toBytes "dev", toBytes "stdout"]
  | .messages => [toBytes "dev", toBytes "stderr"]

def inputStream : Stream :=
  { fd := 0, reads := true, writes := false, appends := false, counted := false }

def outputStream : Stream :=
  { fd := 1, reads := false, writes := true, appends := false, counted := false }

def messageStream : Stream :=
  { outputStream with fd := 2, discipline := .unbuffered }

/-- The handle as it is made. -/
def initial : ConsoleName → Handle
  | .input => ⟨"<stdin>", "r", some inputStream⟩
  | .output => ⟨"<stdout>", "w", some outputStream⟩
  | .messages => ⟨"<stderr>", "w", some messageStream⟩

end ConsoleName

namespace Console

def made? (s : Console) : ConsoleName → Option Handle
  | .input => s.input
  | .output => s.output
  | .messages => s.messages

def get (s : Console) (name : ConsoleName) : Handle :=
  (s.made? name).getD name.initial

def set (s : Console) (name : ConsoleName) (h : Handle) : Console :=
  match name with
  | .input => { s with input := some h }
  | .output => { s with output := some h }
  | .messages => { s with messages := some h }

/-- Makes all three handles. -/
def prepare (s : Console) : Console :=
  ⟨some (s.get .input), some (s.get .output), some (s.get .messages)⟩

theorem get_prepare (s : Console) (name : ConsoleName) : s.prepare.get name = s.get name := by
  cases name <;> rfl

theorem get_set (s : Console) (a b : ConsoleName) (h : Handle) :
    (s.set a h).get b = if a = b then h else s.get b := by
  cases a <;> cases b <;> rfl

/-- Hands what is left in the output buffers to the devices, as happens when a program ends. -/
def settle (s : Console) (sys : System) : System :=
  ((s.get .messages).flush ((s.get .output).flush sys).system).system

end Console

namespace System

/-- Opens a descriptor on something new at a place. -/
def openNew (sys : System) (place : List Name) (content : Content) (readable writable : Bool) :
    System :=
  let (sys, device) := sys.addName place content
  (sys.addDescriptor { device, readable, writable }).1

/-- A fresh system with standard input open on the given content. -/
def withInput (input : Content) : System :=
  fresh.openNew ConsoleName.input.place input true false

/-- Opens the descriptors for output and messages, output on what a path names or else on an empty
file, messages on an empty file. -/
def openOutput (sys : System) (path : Option Bytes) : System :=
  let sys := match path with
    | none => sys.openNew ConsoleName.output.place (.regular []) false true
    | some path => (sys.openPath path ⟨false, true, false, true, false, false⟩).1
  sys.openNew ConsoleName.messages.place (.regular []) false true

/-- A fresh system whose standard descriptors are open, input on the given content. -/
def withConsole (input : Content) : System := (withInput input).openOutput none

/-- The bytes written to a standard descriptor so far. -/
def written (sys : System) (name : ConsoleName) : Option Bytes :=
  match sys.contentAt name.place with
  | some (.regular data) => some data
  | _ => none

end System

end BufferedFiles
