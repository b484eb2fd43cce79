import StructuredText.Command.Run
import StructuredText.Proofs.Command.Paths

/-!
# The verdict of a check

A check that names its files reads each of them once, in the order of their paths, and its outcome is told by what is
read from them (`run_check`): by the set of paths, not by how they are written down, and the exit code neither by how
many diagnostics are shown nor by how they are written.

The log may show whatever is noted on the way. It stands on the standard error output in front of what the check tells
at its end, and it is empty where nothing asks for it (`Log.Quiet`).
-/

namespace StructuredText

/-! ## Sessions -/

namespace Session

variable {p : Session α} {q : α → Session β} {w w' : Written}

theorem bind_of_ok {a : α} (h : p w = .ok a w') : (p >>= q) w = q a w' := by
  show EStateM.bind p q w = _
  rw [EStateM.bind, h]

theorem bind_of_error {failure : Failure} (h : p w = .error failure w') : (p >>= q) w = .error failure w' := by
  show EStateM.bind p q w = _
  rw [EStateM.bind, h]

theorem readText_of_ok {host : Host} {path text : String} (h : host.files.read path = .ok text) (w : Written) :
    readText host path w = .ok text w := by
  rw [readText, h]
  rfl

theorem readText_of_error {host : Host} {path : String} {e : FileError} (h : host.files.read path = .error e)
    (w : Written) : readText host path w = .error (.unreadable path e) w := by
  rw [readText, h]
  rfl

end Session

/-! ## The log -/

/-- Nothing is shown unless `--verbose` is given, as it is where nothing is set around the run: no entry is a
warning. -/
def Log.Quiet (log : Log) : Prop := log false = Log.off false

namespace Written

variable {w : Written} {line : LogEntry → String}

theorem noted_noted (es es' : List LogEntry) : (w.noted line es).noted line es' = w.noted line (es ++ es') := by
  simp [noted, String.append_assoc]

theorem noted_off (es : List LogEntry) : w.noted (Log.off false) es = w := by
  have hempty : String.join (es.map (Log.off false)) = "" := by
    induction es with
    | nil => rfl
    | cons e es ih => rw [List.map_cons, String.join_cons, ih]; rfl
  rw [noted, hempty, String.append_empty]

end Written

/-! ## Outcomes -/

theorem Outcome.eq_of {o o' : Outcome} (hcode : o.code = o'.code) (houtput : o.written.output = o'.written.output)
    (herror : o.written.error = o'.written.error) : o = o' := by
  obtain ⟨code, output, error⟩ := o
  obtain ⟨code', output', error'⟩ := o'
  cases hcode
  cases houtput
  cases herror
  rfl

/-! ## Files -/

namespace Check

/-- What a command line asks for that has files checked. -/
structure Job where
  options : Options
  settings : Settings
  /-- The settings file that is used, if one is. -/
  used : Option String
  paths : List String

/-- The command line asks for the job. It names the files one by one, and no directory. -/
structure Asked (host : Host) (words : List String) (job : Job) : Prop where
  read : Arguments.read words = .ok ⟨job.options, .check job.paths⟩
  load : Settings.load host.files job.options = .ok (job.settings, job.used)
  ne_nil : job.paths ≠ []
  plain : ∀ p ∈ job.paths, Path.Plain p
  notDirectory : ∀ p ∈ job.paths, host.files.isDirectory p = false

/-- What is told about a file with this text. -/
def reportOn (host : Host) (settings : Settings) (path text : String) : String :=
  report settings (settings.color.palette host.outputIsTerminal) path text
    (parse settings.entry (.ofText text)).diagnostics

/-- What is noted about a file with this text. -/
def entriesOn (settings : Settings) (path text : String) : List LogEntry :=
  [.parsed settings.entry text, .fileChecked path (parse settings.entry (.ofText text)).diagnostics.length]

/-- What is noted before the first file is looked at. -/
def Job.entries (job : Job) (files : Files) : List LogEntry :=
  job.settings.entries files job.used ++ [.filesCollected (inOrder job.paths).length]

/-- What is found in files with these texts. -/
def summaryOf (settings : Settings) (text : String → String) (files : List String) : Summary :=
  let parseOf p := parse settings.entry (.ofText (text p))
  ⟨files.length, files.countP fun p => (parseOf p).hasErrors,
    (files.flatMap fun p => (parseOf p).diagnostics).length⟩

section

variable {host : Host} {line : LogEntry → String} {settings : Settings} {path text : String}

theorem checkFile_of_ok (h : host.files.read path = .ok text) (s : Summary) (w : Written) :
    checkFile host line settings s path w = .ok (s.add (parse settings.entry (.ofText text)))
      { w.noted line (entriesOn settings path text) with
        output := w.output ++ reportOn host settings path text } := by
  rw [checkFile, Session.bind_of_ok (Session.readText_of_ok h w)]
  rfl

theorem checkFile_of_error {e : FileError} (h : host.files.read path = .error e) (s : Summary) (w : Written) :
    checkFile host line settings s path w = .error (.unreadable path e) w := by
  rw [checkFile, Session.bind_of_error (Session.readText_of_error h w)]

/-- Files that can be read are checked one after the other. -/
theorem foldlM_checkFile {text : String → String} {files : List String}
    (h : ∀ p ∈ files, host.files.read p = .ok (text p)) (s : Summary) (w : Written) :
    files.foldlM (checkFile host line settings) s w =
      .ok (files.foldl (fun s p => s.add (parse settings.entry (.ofText (text p)))) s)
        { w.noted line (files.flatMap fun p => entriesOn settings p (text p)) with
          output := w.output ++ String.join (files.map fun p => reportOn host settings p (text p)) } := by
  induction files generalizing s w with
  | nil => simp [pure, EStateM.pure, Written.noted]
  | cons p ps ih =>
    obtain ⟨hp, hps⟩ := List.forall_mem_cons.1 h
    rw [List.foldlM_cons, Session.bind_of_ok (checkFile_of_ok hp s w), ih hps]
    simp [Written.noted, String.append_assoc]

/-- A file that cannot be read ends the check. -/
theorem exists_foldlM_eq_error {files : List String} (h : ∃ p ∈ files, ∃ e, host.files.read p = .error e) (s : Summary)
    (w : Written) : ∃ failure w', files.foldlM (checkFile host line settings) s w = .error failure w' := by
  induction files generalizing s w with
  | nil =>
    obtain ⟨p, hp, -⟩ := h
    cases hp
  | cons p ps ih =>
    rw [List.foldlM_cons]
    cases hp : host.files.read p with
    | error e => exact ⟨_, _, Session.bind_of_error (checkFile_of_error hp s w)⟩
    | ok text =>
      rw [Session.bind_of_ok (checkFile_of_ok hp s w)]
      refine ih ?_ _ _
      obtain ⟨q, hq, e, he⟩ := h
      rcases List.mem_cons.1 hq with rfl | hq
      · rw [hp] at he
        cases he
      · exact ⟨q, hq, e, he⟩

theorem filesToCheck_of_named {files : Files} {paths : List String} (patterns : List String) (hne : paths ≠ [])
    (h : ∀ p ∈ paths, files.isDirectory p = false) : filesToCheck files patterns paths = .ok (inOrder paths) := by
  have hmap : paths.mapM (filesAt files patterns) = .ok (paths.map ([·])) := by
    clear hne
    induction paths with
    | nil => rfl
    | cons p ps ih =>
      obtain ⟨hp, hps⟩ := List.forall_mem_cons.1 h
      have hat : filesAt files patterns p = .ok [p] := by rw [filesAt, if_neg (by simp [hp])]
      rw [List.mapM_cons, hat, ih hps]
      rfl
  have hflatten : (paths.map ([·])).flatten = paths := by rw [← List.flatMap_def, List.flatMap_singleton']
  rw [filesToCheck, if_neg (by simpa using hne), hmap]
  exact congrArg (fun ps => Except.ok (inOrder ps)) hflatten

end

/-! ## Ends -/

/-- What is told at the end of a check. -/
def closing (host : Host) (settings : Settings) (s : Summary) : String :=
  if settings.format = .text then host.errorPalette.paint s.style s.message ++ "\n" else ""

/-- The outcome of a check, once its files are checked or one of them could not be read. -/
def outcomeOf (host : Host) (settings : Settings) : EStateM.Result Failure Written Summary → Outcome
  | .ok s w => ⟨if s.filesWithErrors = 0 then 0 else 1, { w with error := w.error ++ closing host settings s }⟩
  | .error failure w =>
    ⟨2, { w with error := w.error ++ host.errorPalette.paint .error ("Error: " ++ failure.message) ++ "\n" }⟩

section

variable {log : Log} {host : Host} {line : LogEntry → String} {words : List String} {settings : Settings} {job : Job}

theorem check_eq {paths files : List String} (hfiles : filesToCheck host.files settings.patterns paths = .ok files)
    (w : Written) : check host line settings paths w =
      match files.foldlM (checkFile host line settings) .empty (w.noted line [.filesCollected files.length]) with
      | .ok s w' => .ok s { w' with error := w'.error ++ closing host settings s }
      | .error failure w' => .error failure w' := by
  rw [check, hfiles, Session.bind_of_ok (show Session.ofExcept (.ok files) w = .ok files w from rfl),
    Session.bind_of_ok (show Session.note line _ w = .ok ⟨⟩ (w.noted line _) from rfl)]
  cases hfold : files.foldlM (checkFile host line settings) .empty (w.noted line [.filesCollected files.length]) with
  | error failure w' => rw [Session.bind_of_error hfold]
  | ok s w' =>
    rw [Session.bind_of_ok hfold]
    show _ = EStateM.Result.ok s { w' with error := w'.error ++ closing host settings s }
    rw [closing]
    by_cases hformat : settings.format = .text
    · rw [if_pos hformat, if_pos hformat]
      rfl
    · rw [if_neg hformat, if_neg hformat, String.append_empty]
      rfl

/-- A check reads its files in the order of their paths. -/
theorem Asked.run_eq (h : Asked host words job) :
    runLogged log host words = outcomeOf host job.settings
      ((inOrder job.paths).foldlM (checkFile host (log job.options.verbose) job.settings) .empty
        (Written.noted ⟨"", ""⟩ (log job.options.verbose) (job.entries host.files))) := by
  have hfiles := filesToCheck_of_named job.settings.patterns h.ne_nil h.notDirectory
  have hperform : (Arguments.perform host log ⟨job.options, .check job.paths⟩) ⟨"", ""⟩ =
      (check host (log job.options.verbose) job.settings job.paths >>= fun s => pure (s.filesWithErrors != 0))
        (Written.noted ⟨"", ""⟩ (log job.options.verbose) (job.settings.entries host.files job.used)) := by
    rw [Arguments.perform, h.load]
    rfl
  rw [runLogged, h.read]
  dsimp only
  rw [Session.outcome, EStateM.run, hperform, Job.entries, ← Written.noted_noted]
  have hcheck : check host (log job.options.verbose) job.settings job.paths _ = _ := check_eq hfiles
    (Written.noted ⟨"", ""⟩ (log job.options.verbose) (job.settings.entries host.files job.used))
  revert hcheck
  cases (inOrder job.paths).foldlM (checkFile host (log job.options.verbose) job.settings) .empty _ with
  | ok s w =>
    intro hcheck
    rw [Session.bind_of_ok hcheck]
    show Outcome.mk (if (s.filesWithErrors != 0) = true then 1 else 0) _ = ⟨if s.filesWithErrors = 0 then 0 else 1, _⟩
    by_cases hs : s.filesWithErrors = 0 <;> simp [hs]
  | error failure w =>
    intro hcheck
    rw [Session.bind_of_error hcheck]
    rfl

/-- The summary of files with these texts, whatever was checked before them. -/
theorem foldl_add (text : String → String) (files : List String) (s : Summary) :
    files.foldl (fun s p => s.add (parse settings.entry (.ofText (text p)))) s =
      ⟨s.files + (summaryOf settings text files).files,
        s.filesWithErrors + (summaryOf settings text files).filesWithErrors,
        s.diagnostics + (summaryOf settings text files).diagnostics⟩ := by
  induction files generalizing s with
  | nil => simp [summaryOf]
  | cons p ps ih =>
    rw [List.foldl_cons, ih, Summary.add]
    by_cases h : (parse settings.entry (.ofText (text p))).hasErrors = true
    · simp [summaryOf, h]
      omega
    · simp [summaryOf, h]
      omega

/-! ## Two checks -/

/-- Two checks of files go the same way: they find the same, or fail for the same reason. What they write to an output
is the same if they write it alike. -/
def Alike (told written : Prop) : EStateM.Result Failure Written Summary → EStateM.Result Failure Written Summary → Prop
  | .ok s w, .ok s' w' => s = s' ∧ (told → w.error = w'.error) ∧ (written → w.output = w'.output)
  | .error f w, .error f' w' => f = f' ∧ (told → w.error = w'.error) ∧ (written → w.output = w'.output)
  | _, _ => False

variable {log' : Log} {host' : Host} {line' : LogEntry → String} {words' : List String} {settings' : Settings}
  {job' : Job} {told : Prop}

/-- What the diagnostics of a file are written by. -/
def WrittenAlike (host host' : Host) (settings settings' : Settings) : Prop :=
  settings.maxPerFile = settings'.maxPerFile ∧ settings.format = settings'.format ∧
    settings.color = settings'.color ∧ host.outputIsTerminal = host'.outputIsTerminal

theorem reportOn_congr (hentry : settings.entry = settings'.entry)
    (h : WrittenAlike host host' settings settings') (path text : String) :
    reportOn host settings path text = reportOn host' settings' path text := by
  obtain ⟨hmax, hformat, hcolor, hterminal⟩ := h
  rw [reportOn, reportOn, report, report, hentry, hmax, hformat, hcolor, hterminal]

theorem alike_foldlM (hentry : settings.entry = settings'.entry) (hline : told → line = line') {files : List String}
    (h : ∀ p ∈ files, host.files.read p = host'.files.read p) (s : Summary) {w w' : Written}
    (herror : told → w.error = w'.error)
    (houtput : WrittenAlike host host' settings settings' → w.output = w'.output) :
    Alike told (WrittenAlike host host' settings settings') (files.foldlM (checkFile host line settings) s w)
      (files.foldlM (checkFile host' line' settings') s w') := by
  induction files generalizing s w w' with
  | nil => exact ⟨rfl, herror, houtput⟩
  | cons p ps ih =>
    obtain ⟨hp, hps⟩ := List.forall_mem_cons.1 h
    rw [List.foldlM_cons, List.foldlM_cons]
    cases hread : host.files.read p with
    | error e =>
      rw [Session.bind_of_error (checkFile_of_error hread s w),
        Session.bind_of_error (checkFile_of_error (hp ▸ hread) s w')]
      exact ⟨rfl, herror, houtput⟩
    | ok text =>
      rw [Session.bind_of_ok (checkFile_of_ok hread s w), Session.bind_of_ok (checkFile_of_ok (hp ▸ hread) s w'),
        hentry]
      refine ih hps _ (fun ht => ?_) fun halike => ?_
      · show w.error ++ String.join ((entriesOn settings p text).map line) =
          w'.error ++ String.join ((entriesOn settings' p text).map line')
        rw [herror ht, hline ht, entriesOn, entriesOn, hentry]
      · show w.output ++ _ = w'.output ++ _
        rw [houtput halike, reportOn_congr hentry halike]

theorem outcomeOf_alike {written : Prop} {r r' : EStateM.Result Failure Written Summary} (h : Alike told written r r')
    (hend : told → settings.format = settings'.format ∧ host.errorIsTerminal = host'.errorIsTerminal) :
    (outcomeOf host settings r).code = (outcomeOf host' settings' r').code ∧
    (told → (outcomeOf host settings r).written.error = (outcomeOf host' settings' r').written.error) ∧
    (written → (outcomeOf host settings r).written.output = (outcomeOf host' settings' r').written.output) := by
  cases r with
  | ok s w =>
    cases r' with
    | ok s' w' =>
      obtain ⟨rfl, herror, houtput⟩ := h
      refine ⟨rfl, fun ht => ?_, houtput⟩
      obtain ⟨hformat, hterminal⟩ := hend ht
      show w.error ++ closing host settings s = w'.error ++ closing host' settings' s
      rw [herror ht, closing, closing, Host.errorPalette, Host.errorPalette, hformat, hterminal]
    | error f' w' => exact h.elim
  | error f w =>
    cases r' with
    | ok s' w' => exact h.elim
    | error f' w' =>
      obtain ⟨rfl, herror, houtput⟩ := h
      refine ⟨rfl, fun ht => ?_, houtput⟩
      simp only [outcomeOf, Host.errorPalette, herror ht, (hend ht).2]

/-- The log shows the same of two checks before they look at a file. -/
def StartAlike (log log' : Log) (host host' : Host) (job job' : Job) : Prop :=
  log job.options.verbose = log' job'.options.verbose ∧
    Written.noted ⟨"", ""⟩ (log job.options.verbose) (job.entries host.files) =
      Written.noted ⟨"", ""⟩ (log' job'.options.verbose) (job'.entries host'.files)

theorem Asked.congr (h : Asked host words job) (h' : Asked host' words' job')
    (hmem : ∀ p, p ∈ job'.paths ↔ p ∈ job.paths) (hread : ∀ p ∈ job.paths, host'.files.read p = host.files.read p)
    (hentry : job'.settings.entry = job.settings.entry) (hstart : told → StartAlike log' log host' host job' job)
    (hend : told → job'.settings.format = job.settings.format ∧ host'.errorIsTerminal = host.errorIsTerminal) :
    (runLogged log' host' words').code = (runLogged log host words).code ∧
    (told → (runLogged log' host' words').written.error = (runLogged log host words).written.error) ∧
    (WrittenAlike host' host job'.settings job.settings →
      (runLogged log' host' words').written.output = (runLogged log host words).written.output) := by
  rw [h.run_eq, h'.run_eq, inOrder_congr h.plain hmem]
  refine outcomeOf_alike (alike_foldlM hentry (fun ht => (hstart ht).1) (fun p hp => hread p ?_) .empty
    (fun ht => congrArg Written.error (hstart ht).2) fun _ => rfl) hend
  exact (mem_inOrder h.plain).1 hp

/-! ## The verdict -/

/-- What comes of a check that names its files. -/
structure Verdict (log : Log) (host : Host) (words : List String) (job : Job) : Prop where
  /-- The files are checked in the order of their paths. -/
  sorted : Path.Sorted (inOrder job.paths)
  /-- Each file is checked once, however often it is named. -/
  mem_iff : ∀ p, p ∈ inOrder job.paths ↔ p ∈ job.paths
  /-- If all files can be read, the exit code tells whether an error was found in one of them, the diagnostics of the
  files are written in order, and all of their diagnostics are counted, shown or not. What the log shows stands in front
  of this. -/
  readable : ∀ text : String → String, (∀ p ∈ job.paths, host.files.read p = .ok (text p)) →
    runLogged log host words =
      ⟨if ∃ p ∈ job.paths, (parse job.settings.entry (.ofText (text p))).hasErrors = true then 1 else 0,
        String.join ((inOrder job.paths).map fun p => reportOn host job.settings p (text p)),
        String.join ((job.entries host.files ++
            (inOrder job.paths).flatMap fun p => entriesOn job.settings p (text p)).map (log job.options.verbose)) ++
          closing host job.settings (summaryOf job.settings text (inOrder job.paths))⟩
  /-- A file that cannot be read makes the check fail. -/
  unreadable : (∃ p ∈ job.paths, ∃ e, host.files.read p = .error e) → (runLogged log host words).code = 2
  /-- Without `--verbose`, nothing of the log is shown unless it is asked for around the run. -/
  quiet : log.Quiet → job.options.verbose = false → runLogged log host words = run host words
  /-- Of the paths, the outcome depends on their set alone. -/
  paths_congr : ∀ words' job', Asked host words' job' → (∀ p, p ∈ job'.paths ↔ p ∈ job.paths) →
    job'.options.verbose = job.options.verbose → job'.settings = job.settings → job'.used = job.used →
      runLogged log host words' = runLogged log host words
  /-- The exit code depends on nothing but the files and what they are read as, and what is told at the end on nothing
  else but the format. -/
  settings_congr : ∀ log' host' words' job', Asked host' words' job' → (∀ p, p ∈ job'.paths ↔ p ∈ job.paths) →
    (∀ p ∈ job.paths, host'.files.read p = host.files.read p) → job'.settings.entry = job.settings.entry →
      (runLogged log' host' words').code = (runLogged log host words).code ∧
      (job'.settings.format = job.settings.format → host'.errorIsTerminal = host.errorIsTerminal →
        (run host' words').written.error = (run host words).written.error) ∧
      (WrittenAlike host' host job'.settings job.settings →
        (runLogged log' host' words').written.output = (runLogged log host words).written.output)

theorem Asked.run_of_readable (h : Asked host words job) {text : String → String}
    (hread : ∀ p ∈ job.paths, host.files.read p = .ok (text p)) :
    runLogged log host words =
      ⟨if ∃ p ∈ job.paths, (parse job.settings.entry (.ofText (text p))).hasErrors = true then 1 else 0,
        String.join ((inOrder job.paths).map fun p => reportOn host job.settings p (text p)),
        String.join ((job.entries host.files ++
            (inOrder job.paths).flatMap fun p => entriesOn job.settings p (text p)).map (log job.options.verbose)) ++
          closing host job.settings (summaryOf job.settings text (inOrder job.paths))⟩ := by
  have hmem (p : String) : p ∈ inOrder job.paths ↔ p ∈ job.paths := mem_inOrder h.plain
  have hnone : (summaryOf job.settings text (inOrder job.paths)).filesWithErrors = 0 ↔
      ¬∃ p ∈ job.paths, (parse job.settings.entry (.ofText (text p))).hasErrors = true := by
    simp only [summaryOf, List.countP_eq_zero, hmem, not_exists, not_and]
  rw [h.run_eq, foldlM_checkFile fun p hp => hread p ((hmem p).1 hp), foldl_add, Written.noted_noted]
  simp only [outcomeOf, Summary.empty, Nat.zero_add, Written.noted, String.empty_append]
  by_cases herror : ∃ p ∈ job.paths, (parse job.settings.entry (.ofText (text p))).hasErrors = true
  · rw [if_pos herror, if_neg fun hzero => hnone.1 hzero herror]
  · rw [if_neg herror, if_pos (hnone.2 herror)]

theorem Asked.code_of_unreadable (h : Asked host words job)
    (herror : ∃ p ∈ job.paths, ∃ e, host.files.read p = .error e) : (runLogged log host words).code = 2 := by
  have herror : ∃ p ∈ inOrder job.paths, ∃ e, host.files.read p = .error e := by
    simpa only [mem_inOrder h.plain] using herror
  rw [h.run_eq]
  obtain ⟨failure, w, hfold⟩ : ∃ failure w, (inOrder job.paths).foldlM (checkFile host (log job.options.verbose)
      job.settings) .empty (Written.noted ⟨"", ""⟩ _ (job.entries host.files)) = .error failure w :=
    exists_foldlM_eq_error herror _ _
  rw [hfold]
  rfl

theorem Asked.run_quiet (h : Asked host words job) (hquiet : log.Quiet) (hverbose : job.options.verbose = false) :
    runLogged log host words = run host words := by
  rw [run, h.run_eq, h.run_eq, hverbose, hquiet]

/-- A check of files that are named one by one reads each of them once, in the order of their paths. It ends with 1 if
an error was found in one of them, with 2 if one of them could not be read, and with 0 otherwise, and none of this
depends on the order in which the files are named or on how diagnostics are shown. -/
theorem run_check (h : Asked host words job) : Verdict log host words job where
  sorted := sorted_inOrder job.paths
  mem_iff _ := mem_inOrder h.plain
  readable _ hread := h.run_of_readable hread
  unreadable herror := h.code_of_unreadable herror
  quiet hquiet hverbose := h.run_quiet hquiet hverbose
  paths_congr words' job' h' hmem hverbose hsettings hused := by
    have hstart : StartAlike log log host host job' job := by
      rw [StartAlike, Job.entries, Job.entries, hverbose, hsettings, hused, inOrder_congr h.plain hmem]
      exact ⟨rfl, rfl⟩
    obtain ⟨hcode, herror, houtput⟩ := h.congr h' hmem (fun _ _ => rfl) (by rw [hsettings]) (fun _ : True => hstart)
      fun _ => ⟨by rw [hsettings], rfl⟩
    exact Outcome.eq_of hcode (houtput ⟨by rw [hsettings], by rw [hsettings], by rw [hsettings], rfl⟩) (herror trivial)
  settings_congr log' host' words' job' h' hmem hread hentry := by
    have hstart : False → StartAlike log' log host' host job' job := False.elim
    obtain ⟨hcode, -, houtput⟩ := h.congr h' hmem hread hentry hstart False.elim
    refine ⟨hcode, fun hformat hterminal => ?_, houtput⟩
    have hstart : StartAlike .off .off host' host job' job :=
      ⟨rfl, (Written.noted_off _).trans (Written.noted_off _).symm⟩
    exact (h.congr h' hmem hread hentry (fun _ : True => hstart) fun _ => ⟨hformat, hterminal⟩).2.1 trivial

/-- A host with a file of two statements and one that breaks off. -/
def twoFiles : Host :=
  ⟨⟨.directory [("w", .directory [("a.st", .file "x := 1;\n".toUTF8), ("b.st", .file "y := ;\n".toUTF8)])], "/w"⟩,
    false, false⟩

/-- A log that counts files and tells which of them was checked, if `--verbose` is given. -/
def countingLog : Log
  | true, .filesCollected count => s!"DEBUG collected {count}\n"
  | true, .fileChecked path _ => s!"DEBUG checked {path}\n"
  | _, _ => ""

theorem run_check_twoFiles :
    runLogged countingLog twoFiles ["-v", "check", "--entry", "statements", "b.st", "a.st", "b.st"] =
      runLogged countingLog twoFiles ["-v", "check", "--entry", "statements", "a.st", "b.st"] ∧
    runLogged countingLog twoFiles ["-v", "check", "--entry", "statements", "a.st", "b.st"] =
      ⟨1, "b.st:1:6: error[E001]: expected expression, found ';'\n",
        "DEBUG collected 2\nDEBUG checked a.st\nDEBUG checked b.st\n" ++
          "Checked 2 file(s): 1 with errors, 1 diagnostic(s)\n"⟩ := by
  let job (paths : List String) : Job :=
    ⟨{ Options.empty with verbose := true, entry := some .statements },
      { Settings.standard with entry := .statements }, none, paths⟩
  have h : Asked twoFiles ["-v", "check", "--entry", "statements", "a.st", "b.st"] (job ["a.st", "b.st"]) :=
    ⟨rfl, rfl, by decide, by decide +kernel, by decide +kernel⟩
  have h' : Asked twoFiles ["-v", "check", "--entry", "statements", "b.st", "a.st", "b.st"]
      (job ["b.st", "a.st", "b.st"]) :=
    ⟨rfl, rfl, by decide, by decide +kernel, by decide +kernel⟩
  let text (p : String) : String := if p = "a.st" then "x := 1;\n" else "y := ;\n"
  have hread : ∀ p ∈ ["a.st", "b.st"], twoFiles.files.read p = .ok (text p) := by decide +kernel
  refine ⟨(run_check h).paths_congr _ _ h' (by simp [job]) rfl rfl rfl, ?_⟩
  rw [(run_check h).readable text hread]
  decide +kernel

end

end Check

end StructuredText
