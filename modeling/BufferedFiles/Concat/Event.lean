import BufferedFiles.Concat.Settings
import BufferedFiles.Text.Quoted

/-!
# Events

What the tool tells about its work: one event for each primitive and each operation on a handle that
went well, and a few for what is lost on the way. Each event has a level and a line of text. The place
of a stream in memory is never shown.
-/
namespace BufferedFiles.Concat

inductive Event where
  | streamOpened (path mode : String)
  | fileOpened (path mode : String)
  | disciplineSet (discipline : Discipline)
  | fetched (asked got : Nat)
  | heldBack (got : Nat) (cause : StreamError)
  | lineFetched (size got : Nat)
  | read (path : String) (max got : Nat)
  | lineRead (path : String) (max got : Nat)
  | stored (length taken : Nat)
  | written (path : String) (length taken : Nat)
  | drained (path : String) (count : Nat)
  | flushed (path : String)
  | closing (path : String)
  | heldDiscarded (cause : StreamError)
  | streamClosed (well : Bool)
  | releasing (path : String)
  | releaseFailed (path : String) (cause : HandleError)
  | copied (count inputs : Nat)
  deriving DecidableEq, Repr

namespace Event

def level : Event → Level
  | .copied _ _ => .information
  | .fileOpened _ _ | .drained _ _ | .closing _ | .releasing _ | .releaseFailed _ _ => .detail
  | _ => .trace

def disciplineName : Discipline → String
  | .full => "Full"
  | .line => "Line"
  | .unbuffered => "Unbuffered"

def text : Event → String
  | .streamOpened path mode => "fopen(" ++ path ++ ", " ++ Text.quote mode ++ ") -> PTR"
  | .fileOpened path mode => "opened file path=" ++ path ++ " mode=" ++ Text.quote mode
  | .disciplineSet discipline => "setvbuf(PTR, " ++ disciplineName discipline ++ ")"
  | .fetched asked got => "fread(PTR, " ++ toString asked ++ ") -> " ++ toString got
  | .heldBack got cause =>
    "fread(PTR) failed after " ++ toString got ++ " bytes, deferring: " ++ cause.message
  | .lineFetched size got => "fgets(PTR, " ++ toString size ++ ") -> " ++ toString got
  | .read path max got =>
    "read path=" ++ path ++ " max=" ++ toString max ++ " got=" ++ toString got
  | .lineRead path max got =>
    "readline path=" ++ path ++ " max=" ++ toString max ++ " got=" ++ toString got
  | .stored length taken => "fwrite(PTR, " ++ toString length ++ ") -> " ++ toString taken
  | .written path length taken =>
    "write path=" ++ path ++ " len=" ++ toString length ++ " written=" ++ toString taken
  | .drained path count => "Drained " ++ path ++ " (" ++ toString count ++ " bytes)"
  | .flushed path => "flush path=" ++ path
  | .closing path => "closing file path=" ++ path
  | .heldDiscarded cause => "discarding deferred error on close: " ++ cause.message
  | .streamClosed well => "fclose(PTR) -> " ++ (if well then "0" else "-1")
  | .releasing path => "releasing unclosed file on drop path=" ++ path
  | .releaseFailed path cause =>
    "close on drop failed path=" ++ path ++ " error=" ++ cause.message
  | .copied count inputs =>
    "Copied " ++ toString count ++ " bytes from " ++ toString inputs ++ " input(s)"

def line (e : Event) : String := e.level.label ++ " " ++ e.text ++ "\n"

end Event

/-- The lines of the events that matter enough. -/
def shown (level : Level) (events : List Event) : String :=
  String.join ((events.filter (·.level.rank ≤ level.rank)).map Event.line)

end BufferedFiles.Concat
