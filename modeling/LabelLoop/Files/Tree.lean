import LabelLoop.Files.Encoding
import LabelLoop.Files.Path

/-!
# File trees

The files and directories that the program can see, as a value: a list of places, counted from the
root, with what stands there.  Reading looks into the tree and writing gives a new one.

A place can also lead to another one.  Symbolic links are followed wherever they stand in a path,
but only so many of them, and a file can have several names.  Some things may be denied at a place,
and some files cannot grow without bound, on a disk that is full or beyond a quota; what is written
to such a file is cut off.
-/

namespace LabelLoop

/-- A **place**: the names that lead there from the root. -/
abbrev Place := List Text

/-- What stands at a place. -/
inductive Entry where
  | file (content : Bytes)
  | directory
  /-- A symbolic link. -/
  | link (target : Path)
  /-- Another name of the file at a place. -/
  | twin (place : Place)
  deriving DecidableEq, Repr

namespace FileTree

/-! ### Errors -/

/-- The **cause** for which a file operation fails. -/
inductive Cause where
  | notFound
  | failure
  | denied
  | exists
  | notDirectory
  | isDirectory
  | tooLarge
  | full
  | readOnly
  | tooLong
  | tooManyLinks
  | overQuota
  deriving DecidableEq, Repr

/-- The number and the words of a cause. -/
def Cause.message : Cause → Text
  | .notFound => "[Errno 2] No such file or directory".toList
  | .failure => "[Errno 5] Input/output error".toList
  | .denied => "[Errno 13] Permission denied".toList
  | .exists => "[Errno 17] File exists".toList
  | .notDirectory => "[Errno 20] Not a directory".toList
  | .isDirectory => "[Errno 21] Is a directory".toList
  | .tooLarge => "[Errno 27] File too large".toList
  | .full => "[Errno 28] No space left on device".toList
  | .readOnly => "[Errno 30] Read-only file system".toList
  | .tooLong => "[Errno 36] File name too long".toList
  | .tooManyLinks => "[Errno 40] Too many levels of symbolic links".toList
  | .overQuota => "[Errno 122] Disk quota exceeded".toList

/-- Causes for which nothing is at a path, and not merely out of reach. -/
def Cause.meansAbsent : Cause → Bool
  | .notFound | .notDirectory | .tooManyLinks => true
  | _ => false

/-- Why a file operation **fails**. -/
inductive FileError where
  | refused (cause : Cause) (path : Path)
  /-- A file that is open has not taken all that was written to it. -/
  | cutOff (cause : Cause)
  /-- The path holds a null character, which no file name can. -/
  | nullCharacter
  deriving DecidableEq, Repr

/-- The message of an error. -/
def FileError.message : FileError → Text
  | .refused cause path => cause.message ++ ": ".toList ++ Text.quoted path.toText
  | .cutOff cause => cause.message
  | .nullCharacter => "embedded null byte".toList

/-- What may be **denied** at a place. -/
inductive Access where
  /-- To go on from a directory. -/
  | search
  /-- To read a file. -/
  | read
  /-- To write to a file, or to make something new in a directory. -/
  | write
  deriving DecidableEq, Repr

/-- How many bytes a file **can hold**, and for which cause no more. -/
structure Bound where
  size : Nat
  cause : Cause
  deriving DecidableEq, Repr

end FileTree

/-- A **file tree**. -/
structure FileTree where
  /-- The directory the program runs in.  It is there, and so are the directories above it. -/
  here : Place
  entries : List (Place × Entry)
  /-- What is denied at which places, and for which cause. -/
  denials : List ((Place × FileTree.Access) × FileTree.Cause) := []
  /-- The places at which files cannot grow without bound. -/
  bounds : List (Place × FileTree.Bound) := []
  deriving DecidableEq, Repr

namespace FileTree

open Text

/-! ### Places -/

/-- What stands at a place. -/
def entryAt? (tree : FileTree) (place : Place) : Option Entry :=
  if place.isPrefixOf tree.here then some .directory else tree.entries.lookup place

/-- Why something is denied at a place, if it is. -/
def denial? (tree : FileTree) (place : Place) (access : Access) : Option Cause :=
  tree.denials.lookup (place, access)

/-- The tree with an entry at a place. -/
def put (tree : FileTree) (place : Place) (e : Entry) : FileTree :=
  if (tree.entries.lookup place).isSome then
    { tree with entries := tree.entries.map fun (p, old) => if p = place then (p, e) else (p, old) }
  else { tree with entries := tree.entries ++ [(place, e)] }

/-! ### Following paths -/

/-- The number of bytes that a text takes in a file name. -/
def byteLength (t : Text) : Nat :=
  (t.flatMap Encoding.utf8Char).length

/-- The place that a name leads to from a directory: two dots lead to the directory above, and from
the root to the root. -/
def next (place : Place) (name : Text) : Place :=
  if name = "..".toList then place.dropLast else place ++ [name]

/-- **One step** over a name.  What is left must be a directory that one may go on from, and the
name may take no more than 255 bytes. -/
def step (tree : FileTree) (place : Place) (name : Text) : Except Cause Place :=
  match tree.entryAt? place with
  | none => .error .notFound
  | some .directory =>
    match tree.denial? place .search with
    | some cause => .error cause
    | none => if 255 < byteLength name then .error .tooLong else .ok (next place name)
  | some _ => .error .notDirectory

/-- Where a path begins that is read at a place. -/
def startFrom (place : Place) (p : Path) : Place :=
  if p.anchor = .here then place else []

/-- Follows names up to the first link, and leaves what is behind a link to `jump`.  Along with the
place comes the number of links that may still be followed. -/
def walkWith (tree : FileTree) (links : Nat)
    (jump : Place → List Text → Except Cause (Place × Nat)) (place : Place) :
    List Text → Except Cause (Place × Nat)
  | [] => .ok (place, links)
  | name :: names =>
    match tree.step place name with
    | .error cause => .error cause
    | .ok q =>
      match tree.entryAt? q with
      | some (.link target) => jump (startFrom place target) (target.names ++ names)
      | some (.twin r) => walkWith tree links jump r names
      | _ => walkWith tree links jump q names

/-- **Follows names** from a place, over no more than the given number of links. -/
def walk (tree : FileTree) : Nat → Place → List Text → Except Cause (Place × Nat)
  | 0 => tree.walkWith 0 fun _ _ => .error .tooManyLinks
  | links + 1 => tree.walkWith (links + 1) (walk tree links)

/-- The number of links that are followed for one path. -/
def maxLinks : Nat :=
  40

/-- A path that can be asked about: no name holds a null character, and it takes fewer than 4096
bytes. -/
def checkPath (p : Path) : Except FileError Unit :=
  if p.names.any (·.contains '\x00') then .error .nullCharacter
  else if 4096 ≤ byteLength p.toText then .error (.refused .tooLong p)
  else .ok ()

/-- Where a path begins. -/
def start (tree : FileTree) (p : Path) : Place :=
  startFrom tree.here p

/-- Finds a place for a path. -/
def locate (p : Path) (found : Except Cause Place) : Except FileError Place :=
  match checkPath p with
  | .error e => .error e
  | .ok () => found.mapError (.refused · p)

/-- The place that a path **leads to**; there need not be anything. -/
def place (tree : FileTree) (p : Path) : Except FileError Place :=
  locate p ((tree.walk maxLinks (tree.start p) p.names).map Prod.fst)

/-- The place that a path **names**: where it leads to if no link stands there, or else the place of
the link. -/
def spot (tree : FileTree) (p : Path) : Except FileError Place :=
  locate p <|
    match p.names.getLast? with
    | none => .ok (tree.start p)
    | some name =>
      match tree.walk maxLinks (tree.start p) p.names.dropLast with
      | .error cause => .error cause
      | .ok (above, _) => tree.step above name

/-! ### Looking -/

/-- What stands where a path leads to. -/
def find? (tree : FileTree) (p : Path) : Option Entry :=
  match tree.place p with
  | .ok place => tree.entryAt? place
  | .error _ => none

/-- If something stands where a path leads to.  That cannot be told of a path that is too long, or
that leads where one may not go. -/
def isThere (tree : FileTree) (p : Path) : Except FileError Bool :=
  match tree.place p with
  | .ok place => .ok (tree.entryAt? place).isSome
  | .error (.refused cause p) =>
    if cause.meansAbsent then .ok false else .error (.refused cause p)
  | .error _ => .ok false

/-- The content of the file at a path. -/
def read (tree : FileTree) (p : Path) : Except FileError Bytes :=
  match tree.place p with
  | .error e => .error e
  | .ok place =>
    match tree.entryAt? place with
    | some (.file content) =>
      match tree.denial? place .read with
      | none => .ok content
      | some cause => .error (.refused cause p)
    | some .directory => .error (.refused .isDirectory p)
    | _ => .error (.refused .notFound p)

/-! ### Writing -/

/-- Goes on with `a` unless writing is denied at a place. -/
def unlessDenied {α : Type} (tree : FileTree) (place : Place) (p : Path) (a : α) :
    Except FileError α :=
  match tree.denial? place .write with
  | none => .ok a
  | some cause => .error (.refused cause p)

/-- **Opens** a file for writing: its place, and its content if it is there. -/
def openAt (tree : FileTree) (p : Path) : Except FileError (Place × Bytes) :=
  match tree.place p with
  | .error e => .error e
  | .ok place =>
    match tree.entryAt? place with
    | none => tree.unlessDenied place.dropLast p (place, [])
    | some (.file content) => tree.unlessDenied place p (place, content)
    | some .directory => .error (.refused .isDirectory p)
    | some _ => .error (.refused .notFound p)

/-- How many more bytes go into the file at a place, which holds `old`. -/
def room (tree : FileTree) (place : Place) (old new : Bytes) : Nat :=
  match tree.bounds.lookup place with
  | none => new.length
  | some bound => bound.size - old.length

/-- The tree with as many new bytes behind the old ones as go into the file at a place. -/
def fill (tree : FileTree) (place : Place) (old new : Bytes) : FileTree :=
  tree.put place (.file (old ++ new.take (tree.room place old new)))

/-- Why not all of the new bytes go into the file at a place. -/
def refusal? (tree : FileTree) (place : Place) (old new : Bytes) : Option Cause :=
  match tree.bounds.lookup place with
  | none => none
  | some bound => if new.length ≤ bound.size - old.length then none else some bound.cause

/-- What comes of adding to a file: the tree, what the file has not taken, and why. -/
structure Appended where
  tree : FileTree
  left : Bytes
  cause : Option Cause

/-- **Adds** to the content of the file at a path. -/
def append (tree : FileTree) (p : Path) (content : Bytes) : Except FileError Appended :=
  match tree.openAt p with
  | .error e => .error e
  | .ok (place, old) =>
    .ok ⟨tree.fill place old content, content.drop (tree.room place old content),
      tree.refusal? place old content⟩

/-- The tree with a new directory at a path. -/
def makeDirectory (tree : FileTree) (p : Path) : Except FileError FileTree :=
  match tree.spot p with
  | .error e => .error e
  | .ok place =>
    match tree.entryAt? place with
    | some _ => .error (.refused .exists p)
    | none => tree.unlessDenied place.dropLast p (tree.put place .directory)

/-- A directory that could not be made is no failure if it is there. -/
def ensureDirectory (tree : FileTree) (p : Path) : FileTree × Option FileError :=
  match tree.makeDirectory p with
  | .ok t => (t, none)
  | .error .nullCharacter => (tree, some .nullCharacter)
  | .error e => (tree, if tree.find? p = some .directory then none else some e)

/-- Makes the directory of the given names, the last name first, and the directories above it that
are missing.  The tree is the one after the last directory that could be made. -/
def ensureDirectoriesOf (tree : FileTree) (anchor : Path.Anchor) :
    List Text → FileTree × Option FileError
  | [] => tree.ensureDirectory ⟨anchor, []⟩
  | name :: names =>
    let p : Path := ⟨anchor, (name :: names).reverse⟩
    match tree.ensureDirectory p with
    | (_, some (.refused .notFound _)) =>
      match ensureDirectoriesOf tree anchor names with
      | (t, some e) => (t, some e)
      | (t, none) => t.ensureDirectory p
    | r => r

/-- The tree with a directory at a path, made together with its parents where they are missing. -/
def ensureDirectories (tree : FileTree) (p : Path) : FileTree × Option FileError :=
  ensureDirectoriesOf tree p.anchor p.names.reverse

end FileTree

end LabelLoop
