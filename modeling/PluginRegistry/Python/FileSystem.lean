import PluginRegistry.Lib.Table

namespace PluginRegistry
open Lib

abbrev Path := List String

structure LinkTarget where
  absolute : Bool
  parts : List String
  deriving DecidableEq

/-- A directory entry. `size` is what `stat` reports, which for files the
kernel makes up need not be the length of what a read returns. -/
inductive Node
  | file (content : List UInt8) (size : Nat)
  | dir
  | symlink (target : LinkTarget)
  | special
  deriving DecidableEq

abbrev FileSystem := Table Path Node

namespace FileSystem

/-- Walk the components of a path from a physical directory. `follow` takes
over where a symbolic link points. -/
def walk (fs : FileSystem) (follow : Path → List String → Option Path) :
    Path → List String → Option Path
  | cur, [] => some cur
  | cur, name :: rest =>
    if name = "" || name = "." then walk fs follow cur rest
    else if name = ".." then walk fs follow cur.dropLast rest
    else match fs.lookup (cur ++ [name]) with
      | none => none
      | some .dir => walk fs follow (cur ++ [name]) rest
      | some (.symlink t) => follow (if t.absolute then [] else cur) (t.parts ++ rest)
      | some (.file ..) | some .special => if rest.isEmpty then some (cur ++ [name]) else none

def resolveWithin (fs : FileSystem) : Nat → Path → List String → Option Path
  | 0 => fs.walk fun _ _ => none
  | links + 1 => fs.walk (resolveWithin fs links)

/-- Where a path leads once every symbolic link is followed; the kernel
follows forty of them and then reports a loop. -/
def resolve (fs : FileSystem) (p : Path) : Option Path :=
  fs.resolveWithin 40 [] p

def stat (fs : FileSystem) (p : Path) : Option Node :=
  (fs.resolve p).bind fs.lookup

/-- `Path.is_file()`. -/
def isFile (fs : FileSystem) (p : Path) : Bool :=
  match fs.stat p with
  | some (.file ..) => true
  | _ => false

/-- `Path.rglob("*")`: every entry below a directory. Linked directories are
listed but not entered, so these are the physical paths below it. -/
def rglob (fs : FileSystem) (root : Path) : List Path :=
  fs.keys.filter fun p => root.isPrefixOf p && p.length != root.length

end FileSystem

end PluginRegistry
