/-! The files that a command can reach: those of one folder, found by a path
relative to it. Nothing is known of what lies outside. -/
namespace ScriptTree

inductive ReadFailure where
  | noSuchFile
  | isDirectory
  | notDirectory
  | notText
  | other (reason : String)
deriving DecidableEq, Repr

def ReadFailure.reason : ReadFailure → String
  | .noSuchFile => "No such file or directory (os error 2)"
  | .isDirectory => "Is a directory (os error 21)"
  | .notDirectory => "Not a directory (os error 20)"
  | .notText => "stream did not contain valid UTF-8"
  | .other reason => reason

def readText (bytes : ByteArray) : Except ReadFailure String :=
  match String.fromUTF8? bytes with
  | some text => .ok text
  | none => .error .notText

structure Folder where
  files : List (String × ByteArray) := []

namespace Folder

/-- The steps of a path, between its slashes. -/
def steps (path : String) : List String :=
  let (last, before) := path.toList.foldr
    (fun c (step, steps) => if c = '/' then ([], step :: steps) else (c :: step, steps)) ([], [])
  (last :: before).map String.ofList

/-- Outside of the folder only directories are known, by paths that name
nothing. -/
def findOutside (steps : List String) : Except ReadFailure ByteArray :=
  if steps.all (["", ".", ".."].contains ·) then .error .isDirectory else .error .noSuchFile

def find (folder : Folder) : List String → Except ReadFailure ByteArray
  | [] => .error .isDirectory
  | step :: rest =>
    if step = "" || step = "." then folder.find rest
    else if step = ".." then findOutside rest
    else
      match folder.files.lookup step with
      | none => .error .noSuchFile
      | some bytes => if rest.isEmpty then .ok bytes else .error .notDirectory

def read (folder : Folder) (path : String) : Except ReadFailure String := do
  let bytes ← if path.toList.head? = some '/' then findOutside (steps path)
    else folder.find (steps path)
  readText bytes

end Folder

end ScriptTree
