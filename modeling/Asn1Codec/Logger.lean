/-
Asn1Codec/Logger.lean

The logger, and the place of its file.

The sinks and the first level come from the environment; the command line has a
directory and a name.  Of the name only the last component is taken, so the file
is in the directory whatever the name is (`setupLogger_file`).  A file that cannot
be opened makes the constructor throw (`setupLogger_error_iff`).
-/
import Asn1Codec.Settings

namespace Asn1Codec

/-! ### Paths -/

/-- string_utilities::dirname: the path up to its last delimiter. -/
def dirname (path delims : String) : String :=
  String.ofList (path.toList.rdropWhile fun c => !delims.toList.contains c)

/-- string_utilities::basename: the path behind its last delimiter. -/
def basename (path delims : String) : String :=
  String.ofList (path.toList.rtakeWhile fun c => !delims.toList.contains c)

def pathDelimiters : String := "/\\"

/-- The two parts of a path. -/
theorem dirname_append_basename (path delims : String) :
    dirname path delims ++ basename path delims = path := by
  rw [dirname, basename, ← String.ofList_append, List.rdropWhile, List.rtakeWhile,
    ← List.reverse_append, List.takeWhile_append_dropWhile, List.reverse_reverse,
    String.ofList_toList]

theorem not_mem_basename {c : Char} {delims : String} (hc : c ∈ delims.toList) (path : String) :
    c ∉ (basename path delims).toList := by
  intro h
  rw [basename, String.toList_ofList] at h
  have hnot := List.mem_rtakeWhile_imp h
  rw [List.contains_iff_mem.mpr hc] at hnot
  cases hnot

/-- The directory of a path that is made from a directory and a name. -/
theorem dirname_append {dir name : String} {delims : String} {d : Char}
    (hd : d ∈ delims.toList) (hdir : dir.toList.getLast? = some d)
    (hname : ∀ c ∈ delims.toList, c ∉ name.toList) : dirname (dir ++ name) delims = dir := by
  have hall : ∀ c ∈ name.toList.reverse, (!delims.toList.contains c) = true := by
    intro c hc
    simpa using fun hmem => hname c hmem (List.mem_reverse.mp hc)
  -- from behind, the name is passed over and the delimiter stops the search
  obtain ⟨init, hinit⟩ := List.getLast?_eq_some_iff.mp hdir
  rw [dirname, String.toList_append, List.rdropWhile, List.reverse_append,
    List.dropWhile_append_of_pos hall, hinit, List.reverse_append, List.reverse_singleton,
    List.singleton_append, List.dropWhile_cons_of_neg (by simpa using hd), List.reverse_cons,
    List.reverse_reverse, ← hinit, String.ofList_toList]

/-! ### The logger -/

/-- The sinks of a spdlog::logger. -/
inductive Sink where
  | rotatingFile (name : String)
  | stdout
  deriving DecidableEq

/-- AcmLogger. -/
structure AcmLogger where
  sinks : List Sink
  level : LogLevel

def toLowercase (s : String) : String := String.ofList (s.toList.map Char.toLower)

def convertStringToBool (value : String) : Bool :=
  let lowercaseValue := toLowercase value
  if lowercaseValue = "true" ∨ lowercaseValue = "1" then true else false

/-- What the file system does when it is asked; fopen, at each of some tries, and
fstat succeed or leave an error, of which this is the text. -/
structure Files where
  dirExists : String → Bool
  mkdir : String → Bool
  fileExists : String → Bool
  remove : String → Bool
  fopen : String → ℕ → Option String
  fstat : String → Option String

/-- file_helper::open_tries. -/
def openTries : ℕ := 5

/-- file_helper::open: the error that is reported is that of the last try. -/
def fileOpen (files : Files) (fname : String) : Except StdExn Unit :=
  if (List.range openTries).any fun tries => (files.fopen fname tries).isNone then .ok ()
  else
    .error (.spdlog ("Failed opening file " ++ fname ++ " for writing: " ++
      (files.fopen fname (openTries - 1)).getD ""))

/-- file_helper::size, with os::filesize. -/
def fileSize (files : Files) (fname : String) : Except StdExn Unit :=
  match files.fstat fname with
  | none => .ok ()
  | some err => .error (.spdlog ("Failed getting file size from fd: " ++ err))

/-- The constructor of rotating_file_sink. -/
def rotatingFileSink (files : Files) (filename : String) : Except StdExn Sink := do
  fileOpen files filename
  fileSize files filename
  pure (.rotatingFile filename)

/-- The constructor, with initializeFlagValuesFromEnvironment. -/
def AcmLogger.constructed (host : Host) (files : Files) (logname : String) :
    Except StdExn AcmLogger := do
  let logToFileFlag := convertStringToBool (getEnvironmentVariable host "ACM_LOG_TO_FILE")
  let logToConsoleFlag := convertStringToBool (getEnvironmentVariable host "ACM_LOG_TO_CONSOLE")
  let fileSinks ←
    if logToFileFlag then List.singleton <$> rotatingFileSink files logname else pure []
  pure
    { sinks := fileSinks ++ if logToConsoleFlag then [.stdout] else []
      level := (LogLevel.read (getEnvironmentVariable host "ACM_LOG_LEVEL")).getD .err }

/-- The directory of the log. -/
def logDirectory (d : CliOption) : String :=
  if d.hasArg then
    if d.arg.toList.getLast? ≠ some '/' then d.arg ++ "/" else d.arg
  else "logs/"

/-- The name of the log. -/
def logName (i : CliOption) : String :=
  if i.hasArg then basename i.arg pathDelimiters else "log.info"

/-- setup_logger: no logger where it returns false. -/
def setupLogger (host : Host) (files : Files) (t : Tool) (removeFiles : Bool) :
    Except StdExn (Option AcmLogger) := do
  let path := logDirectory (← t.getOption 'D')
  if !files.dirExists path && !files.mkdir path then pure none
  else
    let logname := path ++ logName (← t.getOption 'i')
    if removeFiles && files.fileExists logname && !files.remove logname then pure none
    else do
      let logger ← AcmLogger.constructed host files logname
      pure (some logger)

/-- The directory ends with a '/'. -/
theorem getLast?_logDirectory (d : CliOption) :
    (logDirectory d).toList.getLast? = some '/' := by
  rw [logDirectory]
  split
  · split
    · rw [String.toList_append]
      exact List.getLast?_concat
    · exact not_not.mp ‹_›
  · rfl

/-- The name has no delimiter. -/
theorem not_mem_logName {c : Char} (hc : c ∈ pathDelimiters.toList) (i : CliOption) :
    c ∉ (logName i).toList := by
  rw [logName]
  split
  · exact not_mem_basename hc i.arg
  · obtain rfl | rfl : c = '/' ∨ c = '\\' := by simpa [pathDelimiters] using hc
    · decide
    · decide

theorem rotatingFileSink_ok {files : Files} {filename : String} {sink : Sink}
    (h : rotatingFileSink files filename = .ok sink) : sink = .rotatingFile filename := by
  rw [rotatingFileSink] at h
  rcases hopen : fileOpen files filename with e | ⟨⟩
  · rw [hopen] at h
    cases h
  rcases hsize : fileSize files filename with e | ⟨⟩
  · rw [hopen, hsize] at h
    cases h
  rw [hopen, hsize] at h
  exact (Except.ok.inj h).symm

/-- The file of the log is the one that is asked for. -/
theorem rotatingFile_constructed {host : Host} {files : Files} {logname : String}
    {logger : AcmLogger} (h : AcmLogger.constructed host files logname = .ok logger)
    {name : String} (hname : .rotatingFile name ∈ logger.sinks) : name = logname := by
  -- the sink of the console is no file
  have hconsole (b : Bool) : .rotatingFile name ∉ if b then [Sink.stdout] else [] := by
    cases b <;> simp
  rw [AcmLogger.constructed] at h
  rcases hfile : convertStringToBool (getEnvironmentVariable host "ACM_LOG_TO_FILE") with - | -
  · rw [hfile] at h
    obtain rfl := Except.ok.inj h
    exact absurd hname (hconsole _)
  · rcases hsink : rotatingFileSink files logname with e | sink
    · rw [hfile, hsink] at h
      cases h
    · rw [hfile, hsink] at h
      obtain rfl := Except.ok.inj h
      rcases List.mem_append.mp hname with hname | hname
      · have hsame := (List.mem_singleton.mp hname).trans (rotatingFileSink_ok hsink)
        exact Sink.rotatingFile.inj hsame
      · exact absurd hname (hconsole _)

/-- Why the file of a log is not opened: every try fails, or its size cannot be had. -/
def Unopened (files : Files) (fname : String) (e : StdExn) : Prop :=
  (∀ tries < openTries, files.fopen fname tries ≠ none) ∧
      e = .spdlog ("Failed opening file " ++ fname ++ " for writing: " ++
        (files.fopen fname (openTries - 1)).getD "") ∨
    (∃ tries < openTries, files.fopen fname tries = none) ∧
      ∃ err, files.fstat fname = some err ∧
        e = .spdlog ("Failed getting file size from fd: " ++ err)

theorem rotatingFileSink_error_iff {files : Files} {filename : String} {e : StdExn} :
    rotatingFileSink files filename = .error e ↔ Unopened files filename e := by
  rw [rotatingFileSink, fileOpen, fileSize, Unopened]
  by_cases hopen : ∃ tries < openTries, files.fopen filename tries = none
  · have hany : ((List.range openTries).any fun tries =>
        (files.fopen filename tries).isNone) = true := by
      simpa using hopen
    have hnot : ¬ ∀ tries < openTries, files.fopen filename tries ≠ none := by
      simpa using hopen
    rw [if_pos hany, or_iff_right fun h => hnot h.1, and_iff_right hopen]
    rcases files.fstat filename with - | err
    · constructor
      · rintro ⟨⟩
      · rintro ⟨err, ⟨⟩, -⟩
    · constructor
      · intro h
        exact ⟨err, rfl, (Except.error.inj h).symm⟩
      · rintro ⟨_, ⟨⟩, rfl⟩
        rfl
  · have hany : ¬ ((List.range openTries).any fun tries =>
        (files.fopen filename tries).isNone) = true := by
      simpa using hopen
    have hall : ∀ tries < openTries, files.fopen filename tries ≠ none := by
      simpa using hopen
    rw [if_neg hany, or_iff_left fun h => hopen h.1, and_iff_right hall]
    constructor
    · intro h
      exact (Except.error.inj h).symm
    · rintro rfl
      rfl

/-- A logger is made unless the file that the environment asks for is not opened. -/
theorem constructed_error_iff {host : Host} {files : Files} {logname : String} {e : StdExn} :
    AcmLogger.constructed host files logname = .error e ↔
      convertStringToBool (getEnvironmentVariable host "ACM_LOG_TO_FILE") = true ∧
        Unopened files logname e := by
  rw [AcmLogger.constructed, ← rotatingFileSink_error_iff]
  rcases convertStringToBool (getEnvironmentVariable host "ACM_LOG_TO_FILE") with - | -
  · constructor
    · rintro ⟨⟩
    · rintro ⟨⟨⟩, -⟩
  · rcases rotatingFileSink files logname with e' | sink
    · exact ⟨fun h => ⟨rfl, congrArg _ (Except.error.inj h)⟩,
        fun h => congrArg _ (Except.error.inj h.2)⟩
    · constructor
      · rintro ⟨⟩
      · rintro ⟨-, ⟨⟩⟩

/-- Where setup_logger makes the logger, with the name of its file. -/
def LogPlace (files : Files) (t : Tool) (removeFiles : Bool) (logname : String) : Prop :=
  ∃ d i, t.getOption 'D' = .ok d ∧ t.getOption 'i' = .ok i ∧
    logname = logDirectory d ++ logName i ∧
    (files.dirExists (logDirectory d) = true ∨ files.mkdir (logDirectory d) = true) ∧
    (removeFiles = true → files.fileExists logname = true → files.remove logname = true)

/-- What setup_logger does is up to the logger, once it is made. -/
theorem setupLogger_eq {host : Host} {files : Files} {t : Tool} {removeFiles : Bool}
    {logname : String} (h : LogPlace files t removeFiles logname) :
    setupLogger host files t removeFiles =
      (AcmLogger.constructed host files logname).map some := by
  obtain ⟨d, i, hD, hi, rfl, hdir, hremove⟩ := h
  have hdir' : (!files.dirExists (logDirectory d) && !files.mkdir (logDirectory d)) = false := by
    rcases hdir with hdir | hdir <;> simp [hdir]
  have hremove' : (removeFiles && files.fileExists (logDirectory d ++ logName i) &&
      !files.remove (logDirectory d ++ logName i)) = false := by
    simpa using hremove
  simp only [setupLogger, hD, hi, bind, Except.bind, hdir', hremove']
  rcases AcmLogger.constructed host files (logDirectory d ++ logName i) <;> rfl

/-- Otherwise it says that something has failed, if the program has its options. -/
theorem setupLogger_none {host : Host} {files : Files} {t : Tool} {removeFiles : Bool}
    (hD : ∃ d, t.getOption 'D' = .ok d) (hi : ∃ i, t.getOption 'i' = .ok i)
    (h : ∀ logname, ¬ LogPlace files t removeFiles logname) :
    setupLogger host files t removeFiles = .ok none := by
  obtain ⟨d, hD⟩ := hD
  obtain ⟨i, hi⟩ := hi
  simp only [setupLogger, hD, hi, bind, Except.bind]
  split
  · rfl
  · rename_i hdir
    split
    · rfl
    · rename_i hremove
      refine absurd ⟨d, i, hD, hi, rfl, ?_, ?_⟩ (h _)
      · simpa [or_iff_not_imp_left] using hdir
      · simpa using hremove

theorem setupLogger_some {host : Host} {files : Files} {t : Tool} {removeFiles : Bool}
    {logger : AcmLogger} (h : setupLogger host files t removeFiles = .ok (some logger)) :
    ∃ d i, t.getOption 'D' = .ok d ∧ t.getOption 'i' = .ok i ∧
      AcmLogger.constructed host files (logDirectory d ++ logName i) = .ok logger := by
  rcases hD : t.getOption 'D' with e | d
  · simp [setupLogger, hD, bind, Except.bind] at h
  rcases hI : t.getOption 'i' with e | i
  · simp only [setupLogger, hD, hI, bind, Except.bind, pure, Except.pure] at h
    split at h <;> cases h
  refine ⟨d, i, rfl, rfl, ?_⟩
  simp only [setupLogger, hD, hI, bind, Except.bind, pure, Except.pure] at h
  split at h
  · cases h
  split at h
  · cases h
  split at h
  · cases h
  · rw [← Option.some.inj (Except.ok.inj h)]
    assumption

/-- The logger is all that can fail with an exception. -/
theorem setupLogger_error_iff {host : Host} {files : Files} {t : Tool} {removeFiles : Bool}
    {e : StdExn} (hD : ∃ d, t.getOption 'D' = .ok d) (hi : ∃ i, t.getOption 'i' = .ok i) :
    setupLogger host files t removeFiles = .error e ↔
      ∃ logname, LogPlace files t removeFiles logname ∧
        AcmLogger.constructed host files logname = .error e := by
  constructor
  · intro h
    by_cases hplace : ∃ logname, LogPlace files t removeFiles logname
    · obtain ⟨logname, hplace⟩ := hplace
      rw [setupLogger_eq hplace] at h
      rcases hlogger : AcmLogger.constructed host files logname with e' | logger
      · rw [hlogger] at h
        obtain rfl := Except.error.inj h
        exact ⟨logname, hplace, hlogger⟩
      · rw [hlogger] at h
        cases h
    · rw [setupLogger_none hD hi (not_exists.mp hplace)] at h
      cases h
  · rintro ⟨logname, hplace, hlogger⟩
    rw [setupLogger_eq hplace, hlogger]
    rfl

/-- **The log stays in its directory**, whatever name is given for it. -/
theorem setupLogger_file {host : Host} {files : Files} {t : Tool} {removeFiles : Bool}
    {logger : AcmLogger} (h : setupLogger host files t removeFiles = .ok (some logger))
    {name : String} (hname : .rotatingFile name ∈ logger.sinks) :
    ∃ d, t.getOption 'D' = .ok d ∧ dirname name pathDelimiters = logDirectory d := by
  obtain ⟨d, i, hd, -, hlogger⟩ := setupLogger_some h
  refine ⟨d, hd, ?_⟩
  rw [rotatingFile_constructed hlogger hname]
  exact dirname_append (by decide) (getLast?_logDirectory d) fun c hc => not_mem_logName hc i

end Asn1Codec
