import CandleHistory.Fault

/-!
The environment of the program, and what loads files of variables into it. How such a file is to be
read is not the program's own business, so the loader is given to it.
-/

namespace CandleHistory

/-- The variables of a process, by name. -/
abbrev Environment := List (String × String)

namespace Environment

/-- The value of a variable. -/
def lookup (environment : Environment) (name : String) : Option String :=
  (environment.find? (·.1 == name)).map (·.2)

end Environment

/-- A loader of files of variables. -/
structure FileLoader where
  /-- The value that the text of a file gives to a variable, if it gives it one. It may depend on
  the environment, since the text may refer to variables. -/
  value? : Environment → String → String → Option String
  /-- The environment after the text of a file was loaded into it. -/
  load : Environment → String → Except Fault Environment
  /-- What is complained about while the text of a file is loaded. -/
  complaints : Environment → String → List String

namespace FileLoader

/-- Reads a line that consists of a name, an equals sign, and a value. -/
def plainBinding? (line : List Char) : Option (String × String) :=
  match line.dropWhile (· != '=') with
  | _ :: value => some (String.ofList (line.takeWhile (· != '=')), String.ofList value)
  | [] => none

/-- The variables that a text sets line by line. The last line for a variable comes first. -/
def plainBindings (text : String) : Environment :=
  ((text.toList.splitOn '\n').filterMap plainBinding?).reverse

/-- The loader of plain files, in which there are neither quotes nor comments nor references. -/
def plain : FileLoader where
  value? _ text := (plainBindings text).lookup
  load environment text := .ok (environment ++ plainBindings text)
  complaints _ _ := []

end FileLoader

end CandleHistory
