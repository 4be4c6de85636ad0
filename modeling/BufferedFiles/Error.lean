import BufferedFiles.Errno
import BufferedFiles.Text.Quoted

/-!
# Failures

A stream primitive fails with the number the system left, or refuses an argument that holds a NUL
byte. A handle adds the failures of its own: it is closed, its buffering value has no meaning, or
the task that ran the operation was lost. The general transfer operations report a kind and a text.
-/
namespace BufferedFiles

/-- Failure of the stream primitive `op`. -/
inductive StreamError where
  | system (op : String) (errno : Errno) (text : String)
  | interiorNul (op : String)
  deriving DecidableEq, Repr

inductive HandleError where
  | closed
  | invalidBuffering (value : Int)
  | stream (cause : StreamError)
  | lostTask (text : String)
  deriving DecidableEq, Repr

structure TransferError where
  kind : ErrorKind
  message : String
  deriving DecidableEq, Repr

namespace StreamError

/-- The failure of `op` with the usual text of its number. -/
def ofErrno (op : String) (e : Errno) : StreamError := .system op e e.message

def op : StreamError → String
  | .system op _ _ | .interiorNul op => op

/-- An argument with a NUL byte never reaches the primitive and counts as invalid. -/
def errno : StreamError → Errno
  | .system _ e _ => e
  | .interiorNul _ => .invalidArgument

def message : StreamError → String
  | .system op e text => op ++ " failed: [Errno " ++ toString e.code ++ "] " ++ text
  | .interiorNul op => op ++ " failed: argument contains an interior NUL byte"

/-- The constructor with its fields, texts quoted. -/
def describe : StreamError → String
  | .system op e text =>
    "Os \x7b op: " ++ Text.quote op ++ ", code: " ++ toString e.code ++
      ", message: " ++ Text.quote text ++ " \x7d"
  | .interiorNul op => "Nul \x7b op: " ++ Text.quote op ++ " \x7d"

end StreamError

namespace HandleError

def errno : HandleError → Errno
  | .closed => .badDescriptor
  | .invalidBuffering _ => .invalidArgument
  | .stream cause => cause.errno
  | .lostTask _ => .inputOutput

def message : HandleError → String
  | .closed =>
    "[Errno " ++ toString Errno.badDescriptor.code ++ "] " ++ Errno.badDescriptor.message
  | .invalidBuffering value => "invalid value for \"buffering\": " ++ toString value
  | .stream cause => cause.message
  | .lostTask text => "blocking task failed: " ++ text

def describe : HandleError → String
  | .closed =>
    "BadFileDescriptor \x7b code: " ++ toString Errno.badDescriptor.code ++
      ", message: " ++ Text.quote Errno.badDescriptor.message ++ " \x7d"
  | .invalidBuffering value => "InvalidArgument(" ++ toString value ++ ")"
  | .stream cause => "Backend(" ++ cause.describe ++ ")"
  | .lostTask text => "Offload(" ++ Text.quote text ++ ")"

def isClosed : HandleError → Bool
  | .closed => true
  | _ => false

end HandleError

namespace TransferError

def ofHandleError (e : HandleError) : TransferError := ⟨e.errno.kind, e.message⟩

def endOfData : TransferError := ⟨.unexpectedEnd, "failed to fill whole buffer"⟩
def notText : TransferError := ⟨.invalidData, "stream did not contain valid UTF-8"⟩
def nothingWritten : TransferError := ⟨.writeZero, "failed to write whole buffer"⟩

end TransferError

end BufferedFiles
