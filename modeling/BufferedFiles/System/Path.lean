import BufferedFiles.OpenMode
import BufferedFiles.System.Basic

/-!
# Names, paths and opening

A path is a list of components between slashes. It is walked from the root or from the home
directory, one directory at a time; the last component is what is opened or made. A path that ends
in a slash asks for a directory.
-/
namespace BufferedFiles

def slash : UInt8 := 47
def dot : UInt8 := 46

def longestName : Nat := 255
def longestPath : Nat := 4095

/-- The components of a path; two slashes in a row are one. -/
def components (path : Bytes) : List Name :=
  (path.splitOn slash).filter (· ≠ [])

namespace System

def lookup (sys : System) (path : List Name) : Option Nat := sys.names.lookup path

def contentAt (sys : System) (path : List Name) : Option Content :=
  (sys.lookup path).bind fun i => (sys.device? i).map (·.content)

def isDirectory (sys : System) (path : List Name) : Bool :=
  sys.contentAt path == some .directory

/-- One step of a walk, into a component that has to exist. -/
def enter (sys : System) (dir : List Name) (name : Name) : Except Errno (List Name) :=
  if !sys.isDirectory dir then .error .notDirectory
  else if name = [dot] then .ok dir
  else if name = [dot, dot] then .ok dir.dropLast
  else if longestName < name.length then .error .nameTooLong
  else if (sys.lookup (dir ++ [name])).isSome then .ok (dir ++ [name])
  else .error .notFound

/-- Where a path starts to be walked. -/
def origin (sys : System) (path : Bytes) : List Name :=
  if path.head? = some slash then [] else sys.home

/-- The path from the root of something that exists. -/
def find (sys : System) (path : Bytes) : Except Errno (List Name) :=
  if path.isEmpty then .error .notFound
  else if longestPath < path.length then .error .nameTooLong
  else do
    let place ← (components path).foldlM sys.enter (sys.origin path)
    if path.getLast? = some slash && !sys.isDirectory place then .error .notDirectory
    else .ok place

/-- What opening a path comes to: something there, or a name to be made. -/
inductive Place where
  | existing (path : List Name)
  | missing (path : List Name)
  deriving DecidableEq, Repr

/-- The place a path names when its last component may be made. A name that ends in a slash cannot
be made. -/
def findOrMake (sys : System) (path : Bytes) : Except Errno Place :=
  if path.isEmpty then .error .notFound
  else if longestPath < path.length then .error .nameTooLong
  else
    let names := components path
    match names.getLast? with
    | none => .ok (.existing (sys.origin path))
    | some name => do
      let dir ← names.dropLast.foldlM sys.enter (sys.origin path)
      if !sys.isDirectory dir then .error .notDirectory
      else if name = [dot] || name = [dot, dot] then (sys.enter dir name).map .existing
      else if path.getLast? = some slash then .error .isDirectory
      else if longestName < name.length then .error .nameTooLong
      else if (sys.lookup (dir ++ [name])).isSome then .ok (.existing (dir ++ [name]))
      else .ok (.missing (dir ++ [name]))

def addName (sys : System) (path : List Name) (content : Content) : System × Nat :=
  let (sys, i) := sys.addDevice { content }
  ({ sys with names := sys.names ++ [(path, i)] }, i)

/-- The device a mode opens at a path, made or emptied as the mode says. -/
def openDevice (sys : System) (path : Bytes) (mode : OpenMode) : System × Except Errno Nat :=
  let place := if mode.creates then sys.findOrMake path else (sys.find path).map .existing
  match place with
  | .error e => sys.fail e
  | .ok (.missing path) =>
    let (sys, i) := sys.addName path (.regular [])
    (sys, .ok i)
  | .ok (.existing path) =>
    match sys.lookup path with
    | none => sys.fail .notFound
    | some i =>
      match sys.device? i with
      | none => sys.fail .notFound
      | some dev =>
        if mode.creates && mode.exclusive then sys.fail .alreadyExists
        else match dev.content with
          | .directory =>
            if mode.creates || mode.writes then sys.fail .isDirectory else (sys, .ok i)
          | .regular _ =>
            if mode.truncates then (sys.setDevice i { dev with content := .regular [] }, .ok i)
            else (sys, .ok i)
          | _ => (sys, .ok i)

/-- Opens a path, as the number of a new descriptor. -/
def openPath (sys : System) (path : Bytes) (mode : OpenMode) : System × Except Errno Nat :=
  match sys.openDevice path mode with
  | (sys, .error e) => (sys, .error e)
  | (sys, .ok device) =>
    let (sys, fd) := sys.addDescriptor
      { device, readable := mode.reads, writable := mode.writes, appending := mode.appends }
    (sys, .ok fd)

def nullPath : List Name := [toBytes "dev", toBytes "null"]
def zeroPath : List Name := [toBytes "dev", toBytes "zero"]
def fullPath : List Name := [toBytes "dev", toBytes "full"]
def homePath : List Name := [toBytes "home"]

/-- The conversions that are there without a module to be loaded, under some of their names. -/
def builtinCharsets : List Bytes :=
  ["UTF-8//", "UTF8//", "ISO-10646/UTF8/", "UCS-4//", "UCS4//", "ISO-10646/UCS4/", "UCS-2//", "UCS2//",
    "ANSI_X3.4-1968//", "ASCII//", "US-ASCII//"].map toBytes

/-- A system with an empty home directory, the endless devices and no open descriptor. Files reach as
far as in 32-bit block numbers of 4096 bytes. -/
def fresh : System where
  devices := [{ content := .directory }, { content := .directory }, { content := .null },
    { content := .zero }, { content := .full }, { content := .directory }]
  names := [([], 0), ([toBytes "dev"], 1), (nullPath, 2), (zeroPath, 3), (fullPath, 4),
    (homePath, 5)]
  home := homePath
  descriptors := []
  lastError := .success
  largestOffset := 0xFFFFFFFF000
  charsets := builtinCharsets
  openStreams := 0

/-- Makes the directory of a path under the home directory, and the directories above it. -/
def addDirectory (sys : System) (path : Bytes) : System :=
  let names := components path
  (List.range names.length).foldl (fun sys k =>
    let dir := sys.home ++ names.take (k + 1)
    if (sys.lookup dir).isSome then sys else (sys.addName dir .directory).1) sys

/-- Makes a regular file under the home directory, or replaces its bytes. -/
def addFile (sys : System) (path : Bytes) (data : Bytes) : System :=
  let names := sys.home ++ components path
  match sys.lookup names with
  | some i => sys.setDevice i { content := .regular data }
  | none => (sys.addName names (.regular data)).1

/-- The bytes of the file a path names. Looking counts as a call, and a failure of it is
kept as the last error. -/
def contents (sys : System) (path : Bytes) : System × Option Bytes :=
  match sys.find path with
  | .error e => ({ sys with lastError := e }, none)
  | .ok place =>
    match sys.contentAt place with
    | some (Content.regular data) => (sys, some data)
    | some Content.directory => ({ sys with lastError := .isDirectory }, none)
    | some Content.null => (sys, some [])
    | _ => (sys, none)

/-- Everything below the home directory: a relative path, and the bytes of a regular file. -/
def listing (sys : System) : List (Bytes × Option Bytes) :=
  sys.names.filterMap fun (path, i) =>
    if sys.home.length < path.length && sys.home.isPrefixOf path then
      match (sys.device? i).map Device.content with
      | some (.regular data) =>
        some ([slash].intercalate (path.drop sys.home.length), some data)
      | some .directory => some ([slash].intercalate (path.drop sys.home.length), none)
      | _ => none
    else none

end System

end BufferedFiles
