import ScriptLens.Text.Line

namespace ScriptLens

inductive FileError where
  | notFound
  | isDirectory
  | notDirectory
  | notText
deriving DecidableEq

def FileError.message : FileError → String
  | notFound => "No such file or directory (os error 2)"
  | isDirectory => "Is a directory (os error 21)"
  | notDirectory => "Not a directory (os error 20)"
  | notText => "stream did not contain valid UTF-8"

abbrev ReadFile := String → Except FileError String

def decodeFile (bytes : ByteArray) : Except FileError String :=
  match String.fromUTF8? bytes with
  | some text => .ok text
  | none => .error .notText

structure Directory where
  files : List (List String × ByteArray)

namespace Directory

def names (path : String) : List String :=
  (Text.splitOn '/' path.toList).map String.ofList

def ofFiles (files : List (String × ByteArray)) : Directory :=
  ⟨files.map fun (path, bytes) => (names path, bytes)⟩

def file? (d : Directory) (place : List String) : Option ByteArray :=
  d.files.lookup place

def isDirectory (d : Directory) (place : List String) : Bool :=
  place.isEmpty || d.files.any fun f => place.isPrefixOf f.1 && place.length < f.1.length

def follow (d : Directory) (place : List String) : List String → Except FileError ByteArray
  | [] => .error .isDirectory
  | name :: rest =>
    if name = "" ∨ name = "." then d.follow place rest
    else if name = ".." then
      if !place.isEmpty then d.follow place.dropLast rest
      else if rest.all (· = "") then .error .isDirectory
      else .error .notFound
    else
      let next := place ++ [name]
      match d.file? next with
      | some bytes => if rest.isEmpty then .ok bytes else .error .notDirectory
      | none => if d.isDirectory next then d.follow next rest else .error .notFound

def read (d : Directory) : ReadFile := fun path =>
  match names path with
  | "" :: _ => .error .notFound
  | parts => (d.follow [] parts).bind decodeFile

end Directory

end ScriptLens
