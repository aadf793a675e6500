/-
# Paths

Path names as text: their components, the directory and the last name that a path
mentions, and the name of the output that belongs to an input. Nothing here looks at a
file system; a parent component is resolved by its spelling alone.
-/

import HackAssembler.Bytes

namespace HackAssembler

namespace Path

/-- The component that stays where it is. -/
def current : Bytes := [Byte.dot]

/-- The component that goes to the parent. -/
def parent : Bytes := [Byte.dot, Byte.dot]

/-- The texts between the slashes of a path, empty ones included. -/
def components : Bytes → List Bytes
  | [] => [[]]
  | b :: rest =>
    if b = Byte.slash then [] :: components rest
    else
      match components rest with
      | [] => [[b]]
      | first :: others => (b :: first) :: others

/-- Whether a path starts at the root. -/
def isRooted (path : Bytes) : Bool := path.head? == some Byte.slash

/-- Enter a component from the place given by the components before it, last one first.
The root is its own parent. -/
def enter (rooted : Bool) (place : List Bytes) (component : Bytes) : List Bytes :=
  if component = [] ∨ component = current then place
  else if component = parent then
    match place with
    | [] => if rooted then [] else [parent]
    | last :: before => if last = parent then parent :: last :: before else before
  else component :: place

/-- The shortest spelling of the same place. -/
def clean (path : Bytes) : Bytes :=
  let place := ((components path).foldl (enter (isRooted path)) []).reverse
  let text := [Byte.slash].intercalate place
  if isRooted path then Byte.slash :: text
  else if text.isEmpty then current
  else text

/-- The directory part of a path: what stands before its last slash. -/
def directory (path : Bytes) : Bytes := clean (path.reverse.dropWhile (· != Byte.slash)).reverse

/-- The last name in a path, slashes at the end left aside. -/
def base (path : Bytes) : Bytes :=
  if path.isEmpty then current
  else
    match path.reverse.dropWhile (· == Byte.slash) with
    | [] => [Byte.slash]
    | trimmed => (trimmed.takeWhile (· != Byte.slash)).reverse

/-- A name inside a directory. -/
def join (directory name : Bytes) : Bytes :=
  if directory.getLast? = some Byte.slash then directory ++ name
  else directory ++ [Byte.slash] ++ name

/-- The extension of a source file. -/
def sourceExtension : Bytes := ascii ".asm"

/-- The extension of a machine code file. -/
def codeExtension : Bytes := ascii ".hack"

/-- The output path of an input path: the extension of a source is replaced, and to any
other name the extension of machine code is added. -/
def outputName (input : Bytes) : Bytes :=
  let stem :=
    if sourceExtension.isSuffixOf input then input.take (input.length - sourceExtension.length)
    else input
  stem ++ codeExtension

end Path

end HackAssembler
