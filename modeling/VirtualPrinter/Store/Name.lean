/-!
# Names of stored programs

Programs are named by paths. Slashes at the front of a name say nothing, so a name is kept without
them and is given back to clients with a single one.
-/

namespace VirtualPrinter

/-- The path of a stored program, without slashes at its front. -/
structure ProgramName where
  text : String
  unrooted : text.toList.head? ≠ some '/'
deriving DecidableEq

def dropSlashes (text : String) : String :=
  String.ofList (text.toList.dropWhile (· = '/'))

theorem head?_dropSlashes (text : String) : (dropSlashes text).toList.head? ≠ some '/' := by
  intro h
  have head := List.head?_dropWhile_not (fun c : Char => decide (c = '/')) text.toList
  rw [dropSlashes, String.toList_ofList] at h
  rw [h] at head
  simp at head

def baseName (path : String) : String :=
  String.ofList (path.toList.reverse.takeWhile (· ≠ '/')).reverse

namespace ProgramName

/-- The name that a text gives to a program; no text is the empty name. -/
def ofText (text : Option String) : ProgramName :=
  ⟨dropSlashes (text.getD ""), head?_dropSlashes _⟩

def rooted (name : ProgramName) : String := "/" ++ name.text

end ProgramName

end VirtualPrinter
