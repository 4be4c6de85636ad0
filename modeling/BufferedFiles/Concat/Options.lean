import BufferedFiles.Concat.Settings

/-!
# Command line options

Arguments are read from left to right, and the first problem ends the reading. An option that takes
a value waits for the next argument, and a value given that way is looked at only when the argument
after it is known to make sense, or at the end. A value attached to its option is looked at once.
-/
namespace BufferedFiles.Concat

inductive ValueOption where
  | output | buffering | chunkSize
  deriving DecidableEq, Repr

inductive Flag where
  | append | lines | verbose | quiet | help | version
  deriving DecidableEq, Repr

inductive Known where
  | option (o : ValueOption)
  | flag (f : Flag)
  deriving DecidableEq, Repr

/-- Why the reading of arguments ends early. -/
inductive Stop where
  | unknownArgument
  | unexpectedValue
  | missingValue
  | emptyValue
  | unreadableNumber
  | repeated
  | outputRequired
  | help
  | version
  deriving DecidableEq, Repr

namespace Known

def ofLong? (name : List Char) : Option Known :=
  match String.ofList name with
  | "output" => some (.option .output)
  | "buffering" => some (.option .buffering)
  | "chunk-size" => some (.option .chunkSize)
  | "append" => some (.flag .append)
  | "lines" => some (.flag .lines)
  | "verbose" => some (.flag .verbose)
  | "quiet" => some (.flag .quiet)
  | "help" => some (.flag .help)
  | "version" => some (.flag .version)
  | _ => none

def ofShort? : Char → Option Known
  | 'o' => some (.option .output)
  | 'v' => some (.flag .verbose)
  | 'q' => some (.flag .quiet)
  | 'h' => some (.flag .help)
  | 'V' => some (.flag .version)
  | _ => none

end Known

/-- An option whose value is not looked at yet. -/
inductive Pending where
  | nothing
  | awaiting (o : ValueOption)
  | holding (o : ValueOption) (value : String)
  deriving DecidableEq, Repr

/-- What the arguments said so far. -/
structure Draft where
  inputs : List String := []
  output : Option String := none
  append : Bool := false
  buffering : Option Int := none
  chunkSize : Option Nat := none
  lines : Bool := false
  verbose : Nat := 0
  quiet : Bool := false
  pending : Pending := .nothing
  deriving DecidableEq, Repr

/-- The value of decimal digits; `none` where there are none, or anything else is among them. -/
def digits? (cs : List Char) : Option Nat :=
  if cs.isEmpty || cs.any (!·.isDigit) then none
  else some (cs.foldl (fun n c => 10 * n + (c.toNat - '0'.toNat)) 0)

/-- A decimal number with an optional sign. -/
def number? : List Char → Option Int
  | '-' :: cs => (digits? cs).map fun n => -Int.ofNat n
  | '+' :: cs => (digits? cs).map Int.ofNat
  | cs => (digits? cs).map Int.ofNat

/-- A number between two bounds. -/
def numberWithin? (low high : Int) (s : String) : Option Int :=
  (number? s.toList).filter fun n => low ≤ n && n ≤ high

/-- The largest count of a flag that may be repeated. -/
def countLimit : Nat := 255

namespace Draft

/-- Gives an option its value. An option has one value. -/
def assign (d : Draft) (value : String) : ValueOption → Except Stop Draft
  | .output =>
    if d.output.isSome then .error .repeated
    else if value.isEmpty then .error .emptyValue
    else .ok { d with output := some value }
  | .buffering =>
    if d.buffering.isSome then .error .repeated
    else match numberWithin? (-0x80000000) 0x7FFFFFFF value with
    | none => .error .unreadableNumber
    | some n => .ok { d with buffering := some n }
  | .chunkSize =>
    if d.chunkSize.isSome then .error .repeated
    else match numberWithin? 0 0xFFFFFFFF value with
    | none => .error .unreadableNumber
    | some n => .ok { d with chunkSize := some n.toNat }

def settle (d : Draft) : Except Stop Draft :=
  match d.pending with
  | .nothing => .ok d
  | .awaiting _ => .error .missingValue
  | .holding o value => { d with pending := .nothing }.assign value o

def raise (d : Draft) : Flag → Except Stop Draft
  | .append => if d.append then .error .repeated else .ok { d with append := true }
  | .lines => if d.lines then .error .repeated else .ok { d with lines := true }
  | .quiet => if d.quiet then .error .repeated else .ok { d with quiet := true }
  | .verbose => .ok { d with verbose := min (d.verbose + 1) countLimit }
  | .help => .error .help
  | .version => .error .version

def addInput (d : Draft) (input : String) : Except Stop Draft :=
  d.settle.map fun d => { d with inputs := d.inputs ++ [input] }

def await (d : Draft) (o : ValueOption) : Except Stop Draft :=
  d.settle.map fun d => { d with pending := .awaiting o }

/-- An argument that starts with two dashes, without them. -/
def addLong (d : Draft) (text : List Char) : Except Stop Draft :=
  let name := text.takeWhile (· ≠ '=')
  let value := (text.dropWhile (· ≠ '=')).tail
  let attached := text.contains '='
  match Known.ofLong? name with
  | none => .error .unknownArgument
  | some (.option o) =>
    if attached then d.settle.bind (·.assign (String.ofList value) o) else d.await o
  | some (.flag f) => if attached then .error .unexpectedValue else d.settle.bind (·.raise f)

/-- An argument that starts with one dash, without it: flags, and at most one option with what
follows it. -/
def addShort (d : Draft) : List Char → Except Stop Draft
  | [] => .ok d
  | c :: rest =>
    match Known.ofShort? c with
    | none => .error .unknownArgument
    | some (.flag f) => do
      let d ← d.settle
      let d ← d.raise f
      d.addShort rest
    | some (.option o) =>
      match rest with
      | [] => d.await o
      | '=' :: value => d.settle.bind (·.assign (String.ofList value) o)
      | value => d.settle.bind (·.assign (String.ofList value) o)

/-- A plain argument: the value an option waits for, or an input. -/
def addPlain (d : Draft) (text : String) : Except Stop Draft :=
  match d.pending with
  | .awaiting o => .ok { d with pending := .holding o text }
  | _ => d.addInput text

/-- One argument before the end of the options. -/
def addArgument (d : Draft) (text : String) : Except Stop Draft :=
  if d.pending = .awaiting .buffering then d.addPlain text else
  match text.toList with
  | '-' :: '-' :: long => d.addLong long
  | '-' :: c :: short => d.addShort (c :: short)
  | _ => d.addPlain text

/-- All arguments. Two dashes end the options, unless a value is waited for that may be anything. -/
def addArguments (d : Draft) : List String → Except Stop Draft
  | [] => .ok d
  | text :: rest =>
    if text = "--" && d.pending ≠ .awaiting .buffering then rest.foldlM addInput d
    else (d.addArgument text).bind (·.addArguments rest)

/-- The settings once all arguments are read. -/
def finish (d : Draft) : Except Stop Settings := do
  let d ← d.settle
  if (d.append || d.buffering.isSome) && d.output.isNone then .error .outputRequired
  else
    .ok {
      inputs := if d.inputs.isEmpty then [standardMark] else d.inputs
      output := d.output
      append := d.append
      buffering := d.buffering
      chunkSize := d.chunkSize.getD 0
      lines := d.lines
      verbose := d.verbose
      quiet := d.quiet }

end Draft

namespace Settings

def parse (arguments : List String) : Except Stop Settings :=
  (({} : Draft).addArguments arguments).bind Draft.finish

end Settings

end BufferedFiles.Concat
