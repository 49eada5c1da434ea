import VirtualPrinter.Program.Text
import VirtualPrinter.Store.Name

/-!
# The program store

A finite map from program names to texts, listed in the order of the names. Uploads go to the
program directory only: a form upload by the base name of its file, a raw upload by a full name that
has to lie there.
-/

namespace VirtualPrinter

/-! ### What is uploaded -/

inductive Body where
  | text (text : ProgramText)
  | bytes (bytes : List UInt8)
deriving DecidableEq

namespace Body

/-- The text of a body; bytes are read as UTF-8, invalid parts replaced. -/
def decoded : Body → ProgramText
  | text t => t
  | bytes b => Text.utf8Lenient b

def isEmpty : Body → Bool
  | text t => t.isEmpty
  | bytes b => b.isEmpty

end Body

inductive UploadError where
  | outsideDirectory
  | emptyBody
deriving DecidableEq, Repr

def UploadError.message : UploadError → String
  | outsideDirectory => "Must upload to /gcodes/"
  | emptyBody => "Empty body"

/-! ### Sorted entries -/

/-- A name with the text stored under it; a name may be stored without a text. -/
abbrev StoreEntry := ProgramName × Option ProgramText

def StoreEntry.before (a b : StoreEntry) : Prop := a.1.text < b.1.text

/-- Sorted entries with one added, in place of an entry of the same name. -/
def insertEntry (entry : StoreEntry) : List StoreEntry → List StoreEntry
  | [] => [entry]
  | other :: rest =>
    if entry.1.text < other.1.text then entry :: other :: rest
    else if entry.1 = other.1 then entry :: rest
    else other :: insertEntry entry rest

theorem mem_insertEntry {entry e : StoreEntry} {entries : List StoreEntry}
    (h : e ∈ insertEntry entry entries) : e = entry ∨ e ∈ entries := by
  induction entries with
  | nil => simpa [insertEntry] using h
  | cons other rest ih =>
    simp only [insertEntry] at h
    split at h
    · simpa using h
    · split at h
      · rcases List.mem_cons.1 h with rfl | h
        · exact .inl rfl
        · exact .inr (List.mem_cons_of_mem _ h)
      · rcases List.mem_cons.1 h with rfl | h
        · exact .inr List.mem_cons_self
        · rcases ih h with rfl | h
          · exact .inl rfl
          · exact .inr (List.mem_cons_of_mem _ h)

theorem ProgramName.text_injective {a b : ProgramName} (h : a.text = b.text) : a = b := by
  cases a
  cases b
  simp only at h
  subst h
  rfl

theorem sorted_insertEntry {entry : StoreEntry} {entries : List StoreEntry}
    (h : entries.Pairwise StoreEntry.before) :
    (insertEntry entry entries).Pairwise StoreEntry.before := by
  induction entries with
  | nil => simp [insertEntry]
  | cons other rest ih =>
    obtain ⟨first, tail⟩ := List.pairwise_cons.1 h
    simp only [insertEntry]
    split
    next less =>
      refine List.pairwise_cons.2 ⟨fun e mem => ?_, h⟩
      rcases List.mem_cons.1 mem with rfl | mem
      · exact less
      · exact String.lt_trans less (first e mem)
    next notLess =>
      split
      next same =>
        refine List.pairwise_cons.2 ⟨fun e mem => ?_, tail⟩
        have := first e mem
        simpa only [StoreEntry.before, same] using this
      next different =>
        refine List.pairwise_cons.2 ⟨fun e mem => ?_, ih tail⟩
        rcases mem_insertEntry mem with rfl | mem
        · have le : other.1.text ≤ e.1.text := String.not_lt.1 notLess
          rcases Decidable.em (other.1.text < e.1.text) with less | notLess'
          · exact less
          · exact absurd (ProgramName.text_injective
              (String.le_antisymm (String.not_lt.1 notLess') le)) different
        · exact first e mem

/-! ### The store -/

/-- Programs by name, in increasing order of the names. -/
structure ProgramStore where
  entries : List StoreEntry
  sorted : entries.Pairwise StoreEntry.before

namespace ProgramStore

def empty : ProgramStore := ⟨[], .nil⟩

/-- The names of all programs, in increasing order. -/
def names (s : ProgramStore) : List String := s.entries.map (·.1.text)

/-- What is stored under a name, if anything is; that may be no text. -/
def get? (s : ProgramStore) (name : ProgramName) : Option (Option ProgramText) :=
  s.entries.lookup name

def contains (s : ProgramStore) (name : ProgramName) : Bool := (s.get? name).isSome

/-- The store with a body under a name, in place of any before. -/
def put (s : ProgramStore) (name : ProgramName) (body : Option Body) : ProgramStore :=
  ⟨insertEntry (name, body.map (·.decoded)) s.entries, sorted_insertEntry s.sorted⟩

def erase (s : ProgramStore) (name : ProgramName) : ProgramStore :=
  ⟨s.entries.filter (·.1 ≠ name), s.sorted.filter _⟩

/-- Removes a name; the answer is whether a text was stored under it. -/
def remove (s : ProgramStore) (name : ProgramName) : Bool × ProgramStore :=
  (((s.get? name).join).isSome, s.erase name)

/-! ### Uploads -/

def directory : String := "gcodes/"

/-- The file name of a form upload that comes without one. -/
def defaultFile : String := "upload.gcode"

def inDirectory (file : String) : ProgramName := .ofText (some (directory ++ file))

/-- The name that a form upload is stored under: the base name of its file, in the directory. -/
def formName (file : Option String) : ProgramName :=
  let base := baseName (file.getD "")
  inDirectory (if base.isEmpty then defaultFile else base)

/-- Stores a form upload; the answer is its name. -/
def uploadForm (s : ProgramStore) (file : Option String) (body : Option Body) :
    ProgramName × ProgramStore :=
  let name := formName file
  (name, s.put name body)

def liesInDirectory (name : ProgramName) : Bool := directory.toList.isPrefixOf name.text.toList

/-- Stores a raw upload under a name in the directory; the body must not be empty. -/
def uploadRaw (s : ProgramStore) (name : ProgramName) (body : Option Body) :
    Except UploadError ProgramStore :=
  if !liesInDirectory name then .error .outsideDirectory
  else if body.elim true (·.isEmpty) then .error .emptyBody
  else .ok (s.put name body)

end ProgramStore

end VirtualPrinter
