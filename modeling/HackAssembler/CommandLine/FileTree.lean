/-
# A tree of files

A file system in memory: directories and files without links, a working directory, and
the texts printed so far. Paths are resolved component by component, each component
having to be entered from an existing directory, so a parent component behind a missing
directory leads nowhere. The tree is kept on a device, which may be too small for a file or
fail in other ways.
-/

import Std.Data.ExtTreeMap
import HackAssembler.Bytes
import HackAssembler.CommandLine.FileSystem
import HackAssembler.CommandLine.Path
import HackAssembler.Source
import HackAssembler.Text.Decimal

namespace HackAssembler

/-- What stands at a place of the tree. -/
inductive Node
  | directory
  | file (content : Bytes)
  deriving Repr, DecidableEq

/-- A place in the tree: the names on the way from the root. -/
abbrev Place := List Bytes

/-- Directories and files by their places. The root is always a directory. -/
structure FileTree where
  nodes : Std.ExtTreeMap Place Node compare

namespace FileTree

/-- The tree that has only its root. -/
def empty : FileTree := ⟨∅⟩

/-- What stands at a place. -/
def node? (tree : FileTree) (place : Place) : Option Node :=
  if place.isEmpty then some .directory else tree.nodes[place]?

/-- Put a node at a place. -/
def insert (tree : FileTree) (place : Place) (node : Node) : FileTree :=
  ⟨tree.nodes.insert place node⟩

/-- Clear a place. -/
def erase (tree : FileTree) (place : Place) : FileTree := ⟨tree.nodes.erase place⟩

/-- A node is seen at the place where it was put. -/
theorem node?_insert (tree : FileTree) (place other : Place) (node : Node) (h : place ≠ []) :
    (tree.insert place node).node? other =
      if place = other then some node else tree.node? other := by
  by_cases same : place = other
  · subst same
    simp [node?, insert, h]
  · simp [node?, insert, Std.ExtTreeMap.getElem?_insert, same]

/-- A place that is cleared again after a node was put there is as it was before. -/
theorem erase_insert (tree : FileTree) (place : Place) (node : Node)
    (free : tree.node? place = none) : (tree.insert place node).erase place = tree := by
  have absent : tree.nodes[place]? = none := by
    simp only [node?] at free
    split at free
    · cases free
    · exact free
  cases tree with
  | mk nodes =>
    simp only [erase, insert, FileTree.mk.injEq]
    apply Std.ExtTreeMap.ext_getElem?
    intro other
    rw [Std.ExtTreeMap.getElem?_erase, Std.ExtTreeMap.getElem?_insert]
    by_cases same : place = other
    · subst same
      simpa using absent.symm
    · simp [same]

/-- The number of places taken. -/
def size (tree : FileTree) : Nat := tree.nodes.size

/-- Make a directory at a place and at all places on the way to it. -/
def makeDirectory (tree : FileTree) (place : Place) : FileTree :=
  (List.range place.length).foldl
    (fun tree depth => tree.insert (place.take (depth + 1)) .directory) tree

/-- The longest name of a directory entry. -/
def maxName : Nat := 255

/-- The longest path. -/
def maxPath : Nat := 4095

/-- Walk from a place through the components of a path, all of which have to exist. -/
def walk (tree : FileTree) (place : Place) : List Bytes → Except FileFault Place
  | [] => .ok place
  | component :: rest =>
    match tree.node? place with
    | none => .error .notFound
    | some (.file _) => .error .notDirectory
    | some .directory =>
      if component = [] ∨ component = Path.current then tree.walk place rest
      else if component = Path.parent then tree.walk place.dropLast rest
      else if maxName < component.length then .error .nameTooLong
      else if (tree.node? (place ++ [component])).isNone then .error .notFound
      else tree.walk (place ++ [component]) rest

end FileTree

/-- What a tree is kept on, with the faults that it has. -/
structure Device where
  /-- The most bytes that a file can have. -/
  capacity : Option Nat := none
  /-- What setting a mode reports. -/
  modeFault : Option FileFault := none
  /-- What closing a file reports. -/
  closeFault : Option FileFault := none
  deriving Repr, DecidableEq

namespace Device

/-- What a file that is too large for the device reports. -/
def full : FileFault := .other (ascii "no space left on device")

/-- The part of a text that there is place for behind so many bytes. -/
def taken (device : Device) (size : Nat) (text : Bytes) : Bytes :=
  match device.capacity with
  | none => text
  | some capacity => text.take (capacity - size)

/-- The result of an operation that a fault prevents. -/
def report : Option FileFault → Except FileFault Unit
  | none => .ok ()
  | some fault => .error fault

end Device

/-- A tree of files, the directory that a call runs in, and what it printed. -/
structure World where
  tree : FileTree
  workingDirectory : Place
  device : Device := {}
  /-- What went to the standard output. -/
  printed : Bytes := []
  /-- What went to the standard error. -/
  remarked : Bytes := []

/-- A computation that changes the world. -/
abbrev WorldM := StateM World

namespace World

/-- Where a path starts. -/
def start (world : World) (path : Bytes) : Place :=
  if Path.isRooted path then [] else world.workingDirectory

/-- What is wrong with a path before it is looked up, if anything. -/
def pathFault? (path : Bytes) : Option FileFault :=
  if path.contains 0 then some .invalid
  else if path.isEmpty then some .notFound
  else if FileTree.maxPath < path.length then some .nameTooLong
  else none

/-- The existing place of a path. -/
def resolve (world : World) (path : Bytes) : Except FileFault Place :=
  match pathFault? path with
  | some fault => .error fault
  | none => world.tree.walk (world.start path) (Path.components path)

/-- The place of a file that is to stand at a path; only its directory has to exist. -/
def locate (world : World) (path : Bytes) : Except FileFault Place :=
  match pathFault? path with
  | some fault => .error fault
  | none =>
    let components := Path.components path
    let name := components.getLastD []
    match world.tree.walk (world.start path) components.dropLast with
    | .error fault => .error fault
    | .ok directory =>
      match world.tree.node? directory with
      | none => .error .notFound
      | some (.file _) => .error .notDirectory
      | some .directory =>
        if name = [] ∨ name = Path.current ∨ name = Path.parent then .error .notDirectory
        else if FileTree.maxName < name.length then .error .nameTooLong
        else .ok (directory ++ [name])

/-- What stands at a path. -/
def node? (world : World) (path : Bytes) : Option Node :=
  match world.resolve path with
  | .ok place => world.tree.node? place
  | .error _ => none

/-- Open the file at a path. A directory opens, and then cannot be read. -/
def openSource (world : World) (path : Bytes) : Except FileFault Source :=
  match world.resolve path with
  | .error fault => .error fault
  | .ok place =>
    match world.tree.node? place with
    | none => .error .notFound
    | some .directory => .ok { content := [], readFault := some (readDirectoryFault path) }
    | some (.file content) => .ok { content }

/-- The endings tried for a temporary name: the numerals from the first one of ten digits
on. -/
def temporaryTag (attempt : Nat) : Bytes := Decimal.ofNat (1000000000 + attempt)

/-- Put an empty file at the first path that is free among those not yet tried. -/
def createFresh (world : World) (stem : Bytes) :
    List Nat → Except TemporaryFault Bytes × World
  | [] => (.error (.exhausted stem), world)
  | attempt :: attempts =>
    let path := stem ++ temporaryTag attempt
    match world.locate path with
    | .error fault => (.error (.create path fault), world)
    | .ok place =>
      if (world.tree.node? place).isSome then world.createFresh stem attempts
      else (.ok path, { world with tree := world.tree.insert place (.file []) })

/-- Make a temporary file. Among one more attempt than there are places, one is free. -/
def createTemporary (world : World) (stem : Bytes) : Except TemporaryFault Bytes × World :=
  world.createFresh stem (List.range (world.tree.size + 1))

/-- Write to the end of a file, as far as there is place. -/
def write (world : World) (path text : Bytes) : Except FileFault Unit × World :=
  match world.locate path with
  | .error fault => (.error fault, world)
  | .ok place =>
    match world.tree.node? place with
    | none => (.error .notFound, world)
    | some .directory => (.error .isDirectory, world)
    | some (.file content) =>
      let taken := world.device.taken content.length text
      (if taken.length = text.length then .ok () else .error Device.full,
        { world with tree := world.tree.insert place (.file (content ++ taken)) })

/-- Remove a file. -/
def remove (world : World) (path : Bytes) : World :=
  match world.locate path with
  | .error _ => world
  | .ok place => { world with tree := world.tree.erase place }

/-- Move a file, which is refused if there is a directory at the new path. -/
def rename (world : World) (old new : Bytes) : Except FileFault Unit × World :=
  match world.node? new with
  | some .directory => (.error .alreadyExists, world)
  | _ =>
    match world.locate old, world.locate new with
    | .error fault, _ => (.error fault, world)
    | _, .error fault => (.error fault, world)
    | .ok oldPlace, .ok newPlace =>
      match world.tree.node? oldPlace with
      | none => (.error .notFound, world)
      | some node =>
        (.ok (), { world with tree := (world.tree.erase oldPlace).insert newPlace node })

instance : FileSystem WorldM where
  openSource path := fun world => (world.openSource path, world)
  createTemporary stem := fun world => world.createTemporary stem
  setMode _ _ := fun world => (Device.report world.device.modeFault, world)
  write path text := fun world => world.write path text
  close _ := fun world => (Device.report world.device.closeFault, world)
  rename old new := fun world => world.rename old new
  remove path := fun world => ((), world.remove path)
  print text := fun world => ((), { world with printed := world.printed ++ text })
  remark text := fun world => ((), { world with remarked := world.remarked ++ text })

/-- An empty world with the given working directory. -/
def fresh (workingDirectory : Place) : World :=
  { tree := FileTree.empty.makeDirectory workingDirectory, workingDirectory }

/-- The place below the working directory that a simple path names. -/
def place (world : World) (path : Bytes) : Place :=
  world.workingDirectory ++
    (Path.components path).filter fun name => !name.isEmpty && name != Path.current

/-- Make a directory below the working directory. -/
def makeDirectory (world : World) (path : Bytes) : World :=
  { world with tree := world.tree.makeDirectory (world.place path) }

/-- Put a file below the working directory. -/
def putFile (world : World) (path content : Bytes) : World :=
  { world with tree := world.tree.insert (world.place path) (.file content) }

/-- The files below the working directory with their paths from there, ordered by the
bytes of the path. -/
def files (world : World) : List (Bytes × Bytes) :=
  let below := world.tree.nodes.toList.filterMap fun (place, node) =>
    match node with
    | .directory => none
    | .file content =>
      if world.workingDirectory.isPrefixOf place then
        some ([Byte.slash].intercalate (place.drop world.workingDirectory.length), content)
      else none
  below.mergeSort fun left right => (compare left.1 right.1).isLE

end World

end HackAssembler
