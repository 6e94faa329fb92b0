import SoftToken.Bytes
import SoftToken.Config
/-!
# Where the configuration is

The configuration is one file. A variable names it, or else it lies in the configuration directory of
the user or of the system. The surroundings of a program, its variables and files, are given as a value.
-/

namespace SoftToken

/-- The variables and the files that a program can see. -/
structure Surroundings where
  environment : List (String × String)
  /-- The files by the names of the directories that lead to them and their own. -/
  files : List (List String × Bytes)
deriving DecidableEq, Repr

namespace Surroundings

def valueOf? (s : Surroundings) (name : String) : Option String := s.environment.lookup name

/-- The names that a path leads through, apart from empty ones and those that stay or go back. -/
def follow : List String → List String → List String
  | done, [] => done
  | done, "" :: r => follow done r
  | done, "." :: r => follow done r
  | done, ".." :: r => follow done.dropLast r
  | done, name :: r => follow (done ++ [name]) r

/-- The content of the file at a path. A path whose last name is empty or stays or goes back names no
file. -/
def read? (s : Surroundings) (path : String) : Option Bytes :=
  let names := path.splitOn "/"
  if ["", ".", ".."].contains (names.getLastD "") then none else s.files.lookup (follow [] names)

def isFile (s : Surroundings) (path : String) : Bool := (s.read? path).isSome

end Surroundings

namespace Config

/-- The name of the configuration file. -/
def fileName : String := "core.conf"

/-- The configuration directory of the system. -/
def systemDirectory : String := "/usr/local/etc"

/-- The file of the user or of the system. -/
def defaultPath (s : Surroundings) : String :=
  let below := fun directory => directory ++ "/p11core/" ++ fileName
  match s.valueOf? "XDG_CONFIG_HOME", s.valueOf? "HOME" with
  | some directory, _ => below directory
  | none, some home => below (home ++ "/.config")
  | none, none => below systemDirectory

/-- Finds the configuration file. A file that a variable names is taken unseen. -/
def find (s : Surroundings) : Except Error String :=
  match s.valueOf? "P11CORE_CONF" with
  | some path => .ok path
  | none => if s.isFile (defaultPath s) then .ok (defaultPath s) else fail .argumentsBad

/-- Reads the configuration in a file. -/
def ofFile (s : Surroundings) (path : String) : Except Error Config :=
  match (s.read? path).bind fun b => String.fromUTF8? (Bytes.pack b) with
  | some text => ofToml text
  | none => .error (.caused .argumentsBad .configFile)

end Config
end SoftToken
