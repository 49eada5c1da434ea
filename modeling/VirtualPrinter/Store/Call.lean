import VirtualPrinter.Store.Basic

/-!
# Calls to the store

Everything that can be asked of a program store, as data. A call is answered, or fails with a cause,
and leaves a store; names are given as clients write them.
-/

namespace VirtualPrinter

inductive StoreCall where
  | put (name : Option String) (body : Option Body)
  | uploadForm (file : Option String) (body : Option Body)
  | uploadRaw (path : Option String) (body : Option Body)
  | get (name : Option String)
  | contains (name : Option String)
  | remove (name : Option String)

inductive StoreError where
  | notFound (name : ProgramName)
  | upload (error : UploadError)
deriving DecidableEq

def StoreError.message : StoreError → String
  | notFound name => name.text
  | upload error => error.message

inductive StoreAnswer where
  | name (text : String)
  | text (text : Option ProgramText)
  | flag (value : Bool)
  | done
deriving DecidableEq

structure StoreResponse where
  answer : Except StoreError StoreAnswer
  store : ProgramStore

namespace ProgramStore

def perform (s : ProgramStore) : StoreCall → StoreResponse
  | .put name body =>
    let name := ProgramName.ofText name
    { answer := .ok (.name name.text), store := s.put name body }
  | .uploadForm file body =>
    let (name, store) := s.uploadForm file body
    { answer := .ok (.name name.rooted), store }
  | .uploadRaw path body =>
    let name := ProgramName.ofText path
    match s.uploadRaw name body with
    | .error error => { answer := .error (.upload error), store := s }
    | .ok store => { answer := .ok (.name name.text), store }
  | .get name =>
    let name := ProgramName.ofText name
    match s.get? name with
    | none => { answer := .error (.notFound name), store := s }
    | some text => { answer := .ok (.text text), store := s }
  | .contains name => { answer := .ok (.flag (s.contains (.ofText name))), store := s }
  | .remove name =>
    let name := ProgramName.ofText name
    let (found, store) := s.remove name
    { answer := if found then .ok .done else .error (.notFound name), store }

/-- The store that calls leave, answered in order. -/
def run (s : ProgramStore) (calls : List StoreCall) : ProgramStore :=
  calls.foldl (fun s call => (s.perform call).store) s

end ProgramStore

end VirtualPrinter
