import VirtualPrinter.Printer.Request
import VirtualPrinter.Proofs.Machine.Clock
import VirtualPrinter.Proofs.Machine.Progress
import VirtualPrinter.Proofs.Printer.Start
import VirtualPrinter.Proofs.Store.Refinement
import VirtualPrinter.Proofs.Text.Utf8

/-!
# Files from upload to status

A file is followed through the printer: the name that an upload answers with is the one that
downloads, starts and status reports know it by, and its bytes come back and are counted. Between
a start and a report there may be any requests that start nothing.
-/

namespace VirtualPrinter

open Binary64 Text Controller

attribute [local irreducible] Binary64.ofNat Binary64.ofRatio

/-! ### Reports -/

/-- What a document has at the end of a path of field names. -/
def Json.at? : Json → List String → Option Json
  | document, [] => some document
  | .object fields, key :: path => (fields.lookup key).bind (·.at? path)
  | _, _ :: _ => none

/-- A report is about the job of a file: it gives the name and the size of that file. -/
structure Json.IsAbout (report : Json) (name : String) (size : Nat) : Prop where
  fileName : report.at? ["job", "file", "fileName"] = some (.text name)
  fileSize : report.at? ["job", "fileSize"] = some (.integer size)

namespace Snapshot

variable {s : Snapshot} {name : ProgramName} {size : Nat}

theorem report_at_job (s : Snapshot) (dialect : Dialect) (path : List String) :
    (s.report dialect).at? ("job" :: path) = s.jobReport.at? path := by
  cases dialect <;> rfl

theorem report_isAbout (hname : s.fileName = some name.text) (hsize : s.fileSize = size)
    (dialect : Dialect) : (s.report dialect).IsAbout name.rooted size where
  fileName := by
    have hdrop : dropSlashes name.text = name.text := congrArg ProgramName.text (ofText_text name)
    have hfile : s.fileReport = .object [("fileName", .text name.rooted)] := by
      simp only [fileReport, hname, hdrop, ProgramName.rooted]
    rw [report_at_job, jobReport, hfile]
    rfl
  fileSize := by
    rw [report_at_job, jobReport, hsize]
    rfl

end Snapshot

/-! ### Requests that start nothing -/

/-- Requests that can start a job. -/
def Request.startsJob : Request → Bool
  | .start .. | .execute .. | .seed .. => true
  | _ => false

namespace Printer

variable {p : Printer} {requests : List Request} {name : ProgramName} {text : String}
  {now : Binary64} {file path : Option String} {body : Option Body} {bytes : List UInt8}

theorem serve_sameJob {request : Request} (h : request.startsJob = false) :
    SameJob p.machine (p.serve request).machine := by
  have htimed : ∀ (op : Operation) (now : Binary64), op.time? = some now →
      SameJob p.machine (p.controller.perform op).machine :=
    fun op now hop => (effect_of_time (c := p.controller) hop).sameJob
  cases request with
  | start file now => contradiction
  | execute gcode now => contradiction
  | seed read path now => contradiction
  | pause now => exact htimed (.pause now) now rfl
  | resume now => exact htimed (.resume now) now rfl
  | stop now => exact htimed (.stop now) now rfl
  | status dialect now => exact htimed (.status now) now rfl
  | uploadForm file body => exact .refl _
  | uploadRaw path body =>
    simp only [serve, uploadRaw]
    cases p.store.uploadRaw (.ofText path) body <;> exact .refl _
  | download path =>
    simp only [serve, download]
    cases p.store.get? (.ofText path) <;> exact .refl _

theorem serveAll_sameJob (p : Printer)
    (h : ∀ request ∈ requests, request.startsJob = false) :
    SameJob p.machine (p.serveAll requests).machine := by
  induction requests generalizing p with
  | nil => exact .refl _
  | cons request requests ih =>
    rw [List.forall_mem_cons] at h
    exact (serve_sameJob h.1).trans (ih (p.serve request) h.2)

/-! ### Running a file -/

/-- The printer runs the job of a file: whatever else it is asked that starts no job, its reports
are about that file, and there is a report at any time that does not overflow. -/
structure Runs (p : Printer) (name : String) (size : Nat) : Prop where
  reported : ∀ requests : List Request, (∀ request ∈ requests, request.startsJob = false) →
    ∀ dialect now report, ((p.serveAll requests).status dialect now).answer = .ok report →
      report.IsAbout name size
  answered : ∀ requests : List Request, (∀ request ∈ requests, request.startsJob = false) →
    size ≤ 2 ^ 53 → ∀ dialect now, now - p.machine.bootedAt ≠ infinity false →
      ∃ report, ((p.serveAll requests).status dialect now).answer = .ok report

/- A status query fails only on a size or a time that is too large. -/
theorem exists_status {c : Controller} {program : Program}
    (h : c.machine.Installed text program) (hsize : text.utf8ByteSize ≤ 2 ^ 53)
    (htime : now - c.machine.bootedAt ≠ infinity false) :
    ∃ view, (c.status now).answer = .ok view := by
  obtain ⟨t, ht⟩ := h.tick_ok now c.observer (h.size ▸ hsize)
  obtain ⟨view, hview⟩ := Machine.snapshot_ok ((sameJob_tick ht).bootedAt ▸ htime)
  exact ⟨view, status_ok ht hview⟩

theorem status_answer (p : Printer) (dialect : Dialect) (now : Binary64) :
    (p.status dialect now).answer =
      ((p.controller.status now).answer.mapError .machine).map (·.report dialect) := rfl

theorem runs_of_installed {program : Program} (h : Machine.Installed p.machine text program)
    (hname : p.machine.job.fileName = some name.text) : p.Runs name.rooted text.utf8ByteSize where
  reported := by
    intro requests hquiet dialect now report hreport
    rw [status_answer] at hreport
    obtain ⟨view, hview, rfl⟩ := exists_of_map_eq_ok hreport
    obtain ⟨t, ht, -, hsnapshot⟩ := exists_of_status_ok (eq_of_mapError_eq_ok hview)
    have hsame := (p.serveAll_sameJob hquiet).trans (sameJob_tick ht)
    refine Snapshot.report_isAbout ?_ ?_ dialect
    · rw [Machine.snapshot_eq hsnapshot]
      exact hsame.fileName.trans hname
    · rw [Machine.snapshot_eq hsnapshot]
      exact congrArg Int.ofNat (hsame.fileSize.trans h.size)
  answered := by
    intro requests hquiet hsize dialect now htime
    have hsame := p.serveAll_sameJob hquiet
    have hinstalled : (p.serveAll requests).controller.machine.Installed text program :=
      h.of_frame hsame.program hsame.fileSize hsame.duration
    obtain ⟨view, hview⟩ := exists_status hinstalled hsize (hsame.bootedAt.symm ▸ htime)
    refine ⟨view.report dialect, ?_⟩
    rw [status_answer, hview]
    rfl

theorem start_store (p : Printer) (file : Option String) (now : Binary64) :
    (p.start file now).printer.store = p.store := by
  have houtcome := p.start_outcome file now
  generalize (p.start file now).answer = answer at houtcome
  generalize (p.start file now).printer = printer at houtcome ⊢
  cases houtcome <;> rfl

/- A start that succeeds runs the text that is stored under its name. -/
theorem runs_of_start {answer : String} (hname : ProgramName.ofText file = name)
    (hstored : p.store.get? name = some (some ↑text)) (h : (p.start file now).answer = .ok answer) :
    answer = name.rooted ∧ (p.start file now).printer.Runs name.rooted text.utf8ByteSize := by
  subst hname
  have houtcome := p.start_outcome file now
  generalize (p.start file now).printer = printer at houtcome ⊢
  rw [h] at houtcome
  generalize hresult : Except.ok answer = result at houtcome
  cases houtcome with
  | refused hnone => cases hresult
  | started hstartable hgiven hstarted =>
    rw [startableText?, hstored] at hstartable
    have hsame := Option.some.inj (Option.filter_eq_some_iff.1 hstartable).1
    cases hstarted with
    | refused hnone => cases hresult
    | torn hprogram hduration hfault => cases hresult
    | @installed plain program duration htext hprogram hduration =>
      obtain rfl := ProgramText.ofString_inj.1 (hsame.trans htext)
      refine ⟨?_, runs_of_installed ⟨hprogram, rfl, rfl, rfl⟩ rfl⟩
      obtain ⟨_, -, hanswer⟩ := exists_of_map_eq_ok hresult.symm
      exact hanswer.symm

/-! ### Keeping a file -/

/-- The printer has a file under a name: the bytes can be downloaded, and a start that succeeds
runs the file under that name and with its size. -/
structure HasFile (p : Printer) (name : String) (bytes : List UInt8) : Prop where
  downloaded : ∃ text : String, (p.download (some name)).answer = .ok (some ↑text) ∧
    utf8Bytes text = bytes
  started : ∀ now answer, (p.start (some name) now).answer = .ok answer →
    answer = name ∧ (p.start (some name) now).printer.Runs name bytes.length

theorem download_of_stored {text : Option ProgramText} (hname : ProgramName.ofText path = name)
    (h : p.store.get? name = some text) : (p.download path).answer = .ok text := by
  simp only [download, hname, h]

theorem hasFile_of_stored (h : p.store.get? name = some (some ↑text)) :
    p.HasFile name.rooted (utf8Bytes text) where
  downloaded := ⟨text, download_of_stored (ofText_rooted name) h, rfl⟩
  started := by
    intro now answer hstart
    rw [length_utf8Bytes]
    exact runs_of_start (ofText_rooted name) h hstart

/-! ### Uploads -/

theorem rooted_inDirectory (file : String) :
    (ProgramStore.inDirectory file).rooted = "/gcodes/" ++ file := by
  rw [ProgramName.rooted, StoreCall.text_inDirectory, ← String.append_assoc]
  rfl

theorem uploadForm_stored (p : Printer) (file : Option String) (body : Option Body) :
    (p.uploadForm file body).printer.store.get? (ProgramStore.formName file) =
      some (body.map (·.decoded)) :=
  (p.store.get?_put _ _ body).trans (if_pos rfl)

/- The answer to a form upload, in the parts that a client sees. -/
theorem exists_uploadForm (file : Option String) :
    ∃ base, StoreCall.FormTarget file ("gcodes/" ++ base) ∧ base ≠ "" ∧ '/' ∉ base.toList ∧
      (ProgramStore.formName file).rooted = "/gcodes/" ++ base := by
  have hbase := isBaseName_baseName (file.getD "")
  by_cases hempty : baseName (file.getD "") = ""
  · refine ⟨ProgramStore.defaultFile, ⟨_, hbase, ?_⟩, by decide, by decide, ?_⟩
    · rw [if_pos hempty]
      rfl
    · rw [← rooted_inDirectory, ProgramStore.formName, hempty]
      rfl
  · refine ⟨baseName (file.getD ""), ⟨_, hbase, ?_⟩, hempty, hbase.slashless, ?_⟩
    · rw [if_neg hempty]
      rfl
    · rw [← rooted_inDirectory, ProgramStore.formName]
      simp only [String.isEmpty_iff, hempty, if_false]

theorem uploadRaw_of_ok {stored : String} (h : (p.uploadRaw path body).answer = .ok stored) :
    stored = (ProgramName.ofText path).text ∧ StoreCall.InDirectory stored ∧
      StoreCall.HasData body ∧
      (p.uploadRaw path body).printer.store.get? (.ofText path) = some (body.map (·.decoded)) := by
  cases hupload : p.store.uploadRaw (.ofText path) body with
  | error error =>
    simp only [uploadRaw, hupload] at h
    cases h
  | ok store =>
    simp only [uploadRaw, hupload] at h ⊢
    obtain ⟨hdirectory, hbody, rfl⟩ := ProgramStore.uploadRaw_eq_ok_iff.1 hupload
    obtain rfl := Except.ok.inj h
    exact ⟨rfl, hdirectory, hbody, (p.store.get?_put _ _ body).trans (if_pos rfl)⟩

theorem uploadRaw_ok (p : Printer)
    (hdirectory : StoreCall.InDirectory (ProgramName.ofText path).text)
    (hbody : StoreCall.HasData body) :
    (p.uploadRaw path body).answer = .ok (ProgramName.ofText path).text := by
  simp only [uploadRaw, ProgramStore.uploadRaw_eq_ok_iff.2 ⟨hdirectory, hbody, rfl⟩]

/-! ### Files on disk -/

theorem seedText_printer (p : Printer) (path text : String) (now : Binary64) :
    (p.seedText path text now).printer =
      ((p.put (ProgramStore.inDirectory (baseName path)) (some (.text text))).start
        (some (ProgramStore.inDirectory (baseName path)).text) now).printer := by
  simp only [seedText]
  split <;> rfl

theorem seedText_answer {p : Printer} {path text : String} {now : Binary64}
    {stored : Option String} (h : (p.seedText path text now).answer = .ok stored) :
    stored = some (ProgramStore.inDirectory (baseName path)).text ∧
      ∃ answer, ((p.put (ProgramStore.inDirectory (baseName path)) (some (.text text))).start
        (some (ProgramStore.inDirectory (baseName path)).text) now).answer = .ok answer := by
  simp only [seedText] at h
  split at h
  · cases h
  · rename_i answer hanswer
    exact ⟨(Except.ok.inj h).symm, answer, hanswer⟩

theorem seed_eq_seedText (p : Printer) {read : FileReader} {path : Option String} {file : String}
    (now : Binary64) (hpath : seedPath p.config path = .ok (some file))
    (hread : read file = some (utf8Bytes text)) (htext : text ≠ "") :
    p.seed read path now = p.seedText file text now := by
  simp only [seed, hpath, hread, seedBytes, utf8Strict?_utf8Bytes, String.isEmpty_iff, htext,
    if_false]

/-! ### What becomes of bytes -/

/-- Bytes that are valid come back from every upload and every file, and a job started from them is
reported under their name with their size. Bytes of any kind come back as a text, and the bytes of
that text come back as the same text. -/
structure KeepsFiles (p : Printer) (bytes : List UInt8) : Prop where
  form : bytes.toByteArray.IsValidUTF8 → ∀ file,
    ∃ base, StoreCall.FormTarget file ("gcodes/" ++ base) ∧ base ≠ "" ∧ '/' ∉ base.toList ∧
      (p.uploadForm file (some (.bytes bytes))).answer = .ok ("/gcodes/" ++ base) ∧
      (p.uploadForm file (some (.bytes bytes))).printer.HasFile ("/gcodes/" ++ base) bytes
  raw : bytes.toByteArray.IsValidUTF8 → ∀ path stored,
    (p.uploadRaw path (some (.bytes bytes))).answer = .ok stored →
      NormalForm path stored ∧
        (p.uploadRaw path (some (.bytes bytes))).printer.HasFile ("/" ++ stored) bytes
  seeded : bytes.toByteArray.IsValidUTF8 → bytes ≠ [] → ∀ (read : FileReader) path file now,
    seedPath p.config path = .ok (some file) → read file = some bytes →
      ∃ base, IsBaseName file base ∧
        (p.seed read path now).printer.HasFile ("/gcodes/" ++ base) bytes ∧
        ∀ stored, (p.seed read path now).answer = .ok stored →
          stored = some ("gcodes/" ++ base) ∧
            (p.seed read path now).printer.Runs ("/gcodes/" ++ base) bytes.length
  formAgain : ∀ file, ∃ (name text : String),
    (p.uploadForm file (some (.bytes bytes))).answer = .ok name ∧
      ((p.uploadForm file (some (.bytes bytes))).printer.download (some name)).answer =
        .ok (some ↑text) ∧
      ∀ (q : Printer) (other : Option String), ∃ again,
        (q.uploadForm other (some (.bytes (utf8Bytes text)))).answer = .ok again ∧
          ((q.uploadForm other (some (.bytes (utf8Bytes text)))).printer.download
            (some again)).answer = .ok (some ↑text)
  rawAgain : ∀ path stored, (p.uploadRaw path (some (.bytes bytes))).answer = .ok stored →
    ∃ text : String,
      ((p.uploadRaw path (some (.bytes bytes))).printer.download (some stored)).answer =
        .ok (some ↑text) ∧
      ∀ q : Printer, (q.uploadRaw path (some (.bytes (utf8Bytes text)))).answer = .ok stored ∧
        ((q.uploadRaw path (some (.bytes (utf8Bytes text)))).printer.download
          (some stored)).answer = .ok (some ↑text)

theorem download_uploadForm (p : Printer) (file : Option String) (bytes : List UInt8) :
    ((p.uploadForm file (some (.bytes bytes))).printer.download
      (some (ProgramStore.formName file).rooted)).answer = .ok (some ↑(utf8Lenient bytes)) :=
  download_of_stored (ofText_rooted _) (p.uploadForm_stored file (some (.bytes bytes)))

theorem download_uploadRaw {stored : String}
    (h : (p.uploadRaw path (some (.bytes bytes))).answer = .ok stored) :
    ((p.uploadRaw path (some (.bytes bytes))).printer.download (some stored)).answer =
      .ok (some ↑(utf8Lenient bytes)) := by
  obtain ⟨rfl, -, -, hstored⟩ := uploadRaw_of_ok h
  exact download_of_stored (ofText_text _) hstored

/-- Every printer keeps files, under every name and whatever it holds and runs already. -/
theorem keepsFiles (p : Printer) (bytes : List UInt8) : p.KeepsFiles bytes where
  form := by
    intro hvalid file
    obtain ⟨text, rfl⟩ := isValidUTF8_iff.1 hvalid
    obtain ⟨base, htarget, hbase, hslash, hname⟩ := exists_uploadForm file
    have hstored := p.uploadForm_stored file (some (.bytes (utf8Bytes text)))
    refine ⟨base, htarget, hbase, hslash, hname ▸ rfl, hname ▸ hasFile_of_stored ?_⟩
    rw [hstored, Option.map_some, Body.decoded, utf8Lenient_utf8Bytes]
  raw := by
    intro hvalid path stored h
    obtain ⟨text, rfl⟩ := isValidUTF8_iff.1 hvalid
    obtain ⟨rfl, -, -, hstored⟩ := uploadRaw_of_ok h
    refine ⟨normalForm_ofText path, hasFile_of_stored ?_⟩
    rw [hstored, Option.map_some, Body.decoded, utf8Lenient_utf8Bytes]
  seeded := by
    intro hvalid hbytes read path file now hpath hread
    obtain ⟨text, rfl⟩ := isValidUTF8_iff.1 hvalid
    have htext : text ≠ "" := fun hempty => hbytes (hempty ▸ rfl)
    have hname := rooted_inDirectory (baseName file)
    have hstored : (p.put (ProgramStore.inDirectory (baseName file)) (some (.text text))).store.get?
        (ProgramStore.inDirectory (baseName file)) = some (some ↑text) :=
      (p.store.get?_put _ _ _).trans (if_pos rfl)
    rw [p.seed_eq_seedText now hpath hread htext]
    refine ⟨baseName file, isBaseName_baseName file, ?_, ?_⟩
    · refine hname ▸ hasFile_of_stored ?_
      rw [seedText_printer, start_store]
      exact hstored
    · intro stored hanswer
      obtain ⟨rfl, answer, hstart⟩ := seedText_answer hanswer
      have hruns := (runs_of_start (ofText_text _) hstored hstart).2
      rw [hname, ← length_utf8Bytes, ← seedText_printer] at hruns
      refine ⟨?_, hruns⟩
      rw [StoreCall.text_inDirectory, ProgramStore.directory]
  formAgain := by
    intro file
    refine ⟨_, _, rfl, p.download_uploadForm file bytes, fun q other => ⟨_, rfl, ?_⟩⟩
    have hagain := q.download_uploadForm other (utf8Bytes (utf8Lenient bytes))
    rwa [utf8Lenient_utf8Bytes] at hagain
  rawAgain := by
    intro path stored h
    refine ⟨_, download_uploadRaw h, fun q => ?_⟩
    obtain ⟨rfl, hdirectory, ⟨data, hdata, hfull⟩, -⟩ := uploadRaw_of_ok h
    have hbytes : bytes ≠ [] := by
      rintro rfl
      cases hdata
      cases hfull
    have hagain : StoreCall.HasData (some (.bytes (utf8Bytes (utf8Lenient bytes)))) :=
      ⟨_, rfl, List.isEmpty_eq_false_iff.2 (utf8Bytes_utf8Lenient_ne hbytes)⟩
    have hanswer := q.uploadRaw_ok hdirectory hagain
    have hdownload := download_uploadRaw hanswer
    rw [utf8Lenient_utf8Bytes] at hdownload
    exact ⟨hanswer, hdownload⟩

theorem keepsFiles_accented :
    let bytes := utf8Bytes "G1 X0 Y0\nG1 X1 E1 ;é"
    ∃ p report, openAt ⟨[]⟩ 0 = .ok p ∧
      let q := (p.uploadForm (some "a/b.g") (some (.bytes bytes))).printer
      (q.start (some "/gcodes/b.g") 5).answer = .ok "/gcodes/b.g" ∧
        ((q.start (some "/gcodes/b.g") 5).printer.status .legacy 10).answer = .ok report ∧
        report.IsAbout "/gcodes/b.g" 21 := by
  intro bytes
  have hfacts : ((openAt ⟨[]⟩ 0).toOption.map fun p =>
      let r := p.uploadForm (some "a/b.g") (some (.bytes bytes))
      let s := r.printer.start (some "/gcodes/b.g") 5
      let shown := (s.printer.status .legacy 10).answer
      (r.answer.toOption, s.answer.toOption, shown.toOption.isSome)) =
      some (some "/gcodes/b.g", some "/gcodes/b.g", true) := by
    decide +kernel
  obtain ⟨p, hopen, hanswers⟩ := Option.map_eq_some_iff.1 hfacts
  simp only [Prod.mk.injEq] at hanswers
  obtain ⟨hupload, hstart, hreport⟩ := hanswers
  obtain ⟨report, hreport⟩ := Option.isSome_iff_exists.1 hreport
  rw [toOption_eq_some_iff] at hopen hupload hstart hreport
  have hvalid : bytes.toByteArray.IsValidUTF8 := isValidUTF8_iff.2 ⟨_, rfl⟩
  obtain ⟨base, -, -, -, hanswer, hfile⟩ := (keepsFiles p bytes).form hvalid (some "a/b.g")
  rw [hupload, Except.ok.injEq] at hanswer
  rw [← hanswer] at hfile
  have hlength : bytes.length = 21 := by decide +kernel
  have hruns := (hfile.started 5 _ hstart).2
  have habout := hruns.reported [] (List.forall_mem_nil _) .legacy 10 report hreport
  exact ⟨p, report, hopen, hstart, hreport, hlength ▸ habout⟩

end Printer

end VirtualPrinter
