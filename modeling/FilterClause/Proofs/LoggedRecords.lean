import FilterClause.Proofs.FileContents
import FilterClause.Session
import Mathlib.Data.String.Basic

/-!
# What is logged when the logger is configured again

A process configures its logger as often as it likes and records things in between (`LogAction`). Each
action has an outcome (`LogEvent`): a call succeeds with a threshold and a destination, or it is refused,
or something is recorded.

The first call that succeeds decides where records go, and nothing else ever changes there or elsewhere
(`Session.bytesAt_performAll_first`). It does not decide alone what is written: a later call leaves the
installed logger as it is, but it sets the maximum of the process, so a record has to pass the threshold
of the first call and that of the latest one (`LogEvent.stamped`, `Log.logText`). Hence later calls go
unnoticed exactly when none of them holds back a record that the first one lets through.

The argument knows of an action only what its event does to the process (`Session.StepsTo`): a call
leaves all that is written as it is, and a record does not touch the logger. Log files are taken to stay
below the size at which they are rolled.
-/

namespace FilterClause

open Log

/-! ## Actions and their outcomes -/

/-- What a process does to its log: it configures the logger, for a directory, a level and a number of
rolled files to keep or as the environment says, or it records something. -/
inductive LogAction
  | configure (env : Settings.Environment) (directory level : Option String)
      (retention : Option UInt32)
  | configureFromEnvironment (env : Settings.Environment)
  | record (r : Record)

/-- What becomes of an action: a call succeeds with a threshold and a destination, a call is refused, or
something is recorded. -/
inductive LogEvent
  | configured (threshold : Threshold) (destination : Destination)
  | refused (e : Error)
  | recorded (r : Record)
  deriving DecidableEq

namespace LogEvent

/-- What a call answers. -/
def answer? : LogEvent → Option (Except Error Unit)
  | configured _ _ => some (.ok ())
  | refused e => some (.error e)
  | recorded _ => none

/-- What becomes of a call for a level, by the destination that was opened for it. -/
def ofCall (level : Option String) : Except Error Destination → LogEvent
  | .ok destination => .configured (Threshold.ofName (level.getD "info")) destination
  | .error e => .refused e

/-- The records among events, each with the threshold of the last call that had succeeded by then, which
is the given one at first. -/
def stamped (latest : Threshold) : List LogEvent → List (Threshold × Record)
  | [] => []
  | .configured threshold _ :: rest => stamped threshold rest
  | .refused _ :: rest => stamped latest rest
  | .recorded r :: rest => (latest, r) :: stamped latest rest

theorem exists_configured {e : LogEvent} (h : e.answer? = some (.ok ())) :
    ∃ t d, e = .configured t d := by
  cases e with
  | configured t d => exact ⟨t, d, rfl⟩
  | refused e => cases h
  | recorded r => cases h

end LogEvent

namespace LogAction

/-- Carries out an action; a call gives an answer. The number of rolled files to keep plays no part in
what is answered or in which records are written. -/
def perform (p : Session) : LogAction → Option (Except Error Unit) × Session
  | .configure env directory level _ =>
    let (answer, p) := p.configureLogging env directory level
    (some answer, p)
  | .configureFromEnvironment env =>
    let (answer, p) := p.configureFromEnvironment env
    (some answer, p)
  | .record r => (none, p.record r)

/-- What becomes of an action. -/
def event (p : Session) : LogAction → LogEvent
  | .configure env directory level _ => .ofCall level (Session.openLog env p.files directory).1
  | .configureFromEnvironment env =>
    .ofCall (env "AQLFILTER_LOG_LEVEL") (Session.openLog env p.files (env "AQLFILTER_LOG_DIR")).1
  | .record r => .recorded r

/-- The record that an action makes. -/
def record? : LogAction → Option Record
  | .configure _ _ _ _ => none
  | .configureFromEnvironment _ => none
  | .record r => some r

end LogAction

namespace Session

/-- Carries out actions one after the other, whatever they answer. -/
def performAll (p : Session) (actions : List LogAction) : Session :=
  actions.foldl (fun p a => (a.perform p).2) p

/-- What actions answer that are carried out one after the other. -/
def answers (p : Session) : List LogAction → List (Option (Except Error Unit))
  | [] => []
  | a :: rest => (a.perform p).1 :: (a.perform p).2.answers rest

/-- What becomes of actions that are carried out one after the other. -/
def events (p : Session) : List LogAction → List LogEvent
  | [] => []
  | a :: rest => a.event p :: (a.perform p).2.events rest

/-- The bytes that stand at a destination. -/
def bytesAt (p : Session) : Destination → ByteArray
  | .stderr => p.stderr.toByteArray
  | .file place => p.files.bytesAt place

end Session

/-! ## One action -/

namespace Session

variable {p q : Session} {t : Threshold} {d : Destination}

/-- Nothing is written between two states of a process, but directories and empty files can be made. -/
structure Extends (p q : Session) : Prop where
  stderr : q.stderr = p.stderr
  files : p.files.Extends q.files

theorem Extends.bytesAt_eq (h : p.Extends q) (d : Destination) : q.bytesAt d = p.bytesAt d := by
  cases d with
  | stderr => exact congrArg String.toByteArray h.stderr
  | file place => exact h.files.bytesAt_eq place

/-- What is written to a destination arrives there. -/
def IsOpen (p : Session) : Destination → Prop
  | .stderr => True
  | .file place => p.files.HasFile place

theorem Extends.isOpen (h : p.Extends q) (hopen : p.IsOpen d) : q.IsOpen d := by
  cases d with
  | stderr => trivial
  | file place => exact h.files.hasFile hopen

/-- Opening a log extends the file tree, and a log file that is opened is there. -/
theorem openLog_cases (env : Settings.Environment) (files : FileTree) (directory : Option String) :
    files.Extends (openLog env files directory).2 ∧
      ∀ place, (openLog env files directory).1 = .ok (.file place) →
        (openLog env files directory).2.HasFile place := by
  cases directory with
  | none => exact ⟨.refl files, fun _ h => by simp [openLog] at h⟩
  | some directory =>
    have hmakes := files.extends_makeDirectories directory
    rw [openLog]
    split
    · next hmade =>
      rw [hmade] at hmakes
      exact ⟨hmakes, fun _ h => nomatch h⟩
    · next files' hmade =>
      rw [hmade] at hmakes
      have hopens := files'.opens_openWithParents (logPath env directory)
      split
      · next hopened =>
        rw [hopened] at hopens
        exact ⟨hmakes.trans hopens.tree, fun _ h => nomatch h⟩
      · next found _ hopened =>
        rw [hopened] at hopens
        refine ⟨hmakes.trans hopens.tree, fun place h => ?_⟩
        obtain rfl : found = place := by simpa using h
        exact hopens.file found rfl

/-- What an event does to a process. A call that succeeds opens its destination and reconfigures the
logger, one that is refused leaves the logger as it is, and only a record is written anywhere. -/
inductive StepsTo (p : Session) : LogEvent → Session → Prop
  | configured {t : Threshold} {d : Destination} {q : Session} (hextends : p.Extends q)
      (hopen : q.IsOpen d) (hlogger : q.logger = p.logger.configure t d) :
      StepsTo p (.configured t d) q
  | refused {e : Error} {q : Session} (hextends : p.Extends q) (hlogger : q.logger = p.logger) :
      StepsTo p (.refused e) q
  | recorded (r : Record) : StepsTo p (.recorded r) (p.record r)

theorem stepsTo_configureLogging (p : Session) (env : Settings.Environment)
    (directory level : Option String) :
    p.StepsTo (.ofCall level (openLog env p.files directory).1)
      (p.configureLogging env directory level).2 := by
  obtain ⟨hextends, hfile⟩ := openLog_cases env p.files directory
  rw [configureLogging]
  generalize openLog env p.files directory = opened at hextends hfile ⊢
  obtain ⟨answer, files⟩ := opened
  cases answer with
  | error e => exact .refused ⟨rfl, hextends⟩ rfl
  | ok d =>
    refine .configured ⟨rfl, hextends⟩ ?_ rfl
    cases d with
    | stderr => trivial
    | file place => exact hfile place rfl

theorem answer?_ofCall (p : Session) (env : Settings.Environment) (directory level : Option String) :
    (LogEvent.ofCall level (openLog env p.files directory).1).answer? =
      some (p.configureLogging env directory level).1 := by
  rw [configureLogging]
  generalize openLog env p.files directory = opened
  obtain ⟨answer, files⟩ := opened
  cases answer <;> rfl

end Session

namespace LogAction

theorem stepsTo_perform (p : Session) (a : LogAction) : p.StepsTo (a.event p) (a.perform p).2 := by
  cases a with
  | configure env directory level retention => exact p.stepsTo_configureLogging env directory level
  | configureFromEnvironment env =>
    exact p.stepsTo_configureLogging env (env "AQLFILTER_LOG_DIR") (env "AQLFILTER_LOG_LEVEL")
  | record r => exact .recorded r

/-- The event of a call has the answer of the call. -/
theorem answer?_event (p : Session) (a : LogAction) : (a.event p).answer? = (a.perform p).1 := by
  cases a with
  | configure env directory level retention => exact p.answer?_ofCall env directory level
  | configureFromEnvironment env =>
    exact p.answer?_ofCall env (env "AQLFILTER_LOG_DIR") (env "AQLFILTER_LOG_LEVEL")
  | record r => rfl

end LogAction

/-! ## Text of stamped records -/

namespace Log

/-- What a logger writes that was installed with a threshold: the records that pass both this threshold
and the one that they are stamped with, in order. -/
def logText (t : Threshold) (records : List (Threshold × Record)) : String :=
  written t ((records.filter fun x => x.1.allows x.2.severity).map Prod.snd)

theorem written_cons (t : Threshold) (r : Record) (rest : List Record) :
    written t (r :: rest) = (if t.allows r.severity then r.line else "") ++ written t rest := by
  by_cases h : t.allows r.severity <;> simp [written, h]

theorem logText_nil (t : Threshold) : logText t [] = "" := rfl

theorem logText_cons (t u : Threshold) (r : Record) (rest : List (Threshold × Record)) :
    logText t ((u, r) :: rest) =
      (if u.allows r.severity && t.allows r.severity then r.line else "") ++ logText t rest := by
  by_cases hu : u.allows r.severity <;> simp [logText, hu, written_cons]

theorem logText_append (t : Threshold) (records rest : List (Threshold × Record)) :
    logText t (records ++ rest) = logText t records ++ logText t rest := by
  induction records with
  | nil => rw [List.nil_append, logText_nil, String.empty_append]
  | cons x records ih =>
    obtain ⟨u, r⟩ := x
    rw [List.cons_append, logText_cons, logText_cons, ih, String.append_assoc]

/-- No more is written than the installed logger lets through. -/
theorem size_logText_le (t : Threshold) (records : List (Threshold × Record)) :
    (logText t records).utf8ByteSize ≤ (written t (records.map Prod.snd)).utf8ByteSize := by
  induction records with
  | nil => exact Nat.le_refl _
  | cons x rest ih =>
    obtain ⟨u, r⟩ := x
    rw [logText_cons, List.map_cons, written_cons, String.utf8ByteSize_append,
      String.utf8ByteSize_append]
    cases u.allows r.severity with
    | true => exact Nat.add_le_add_left ih _
    | false => exact Nat.add_le_add (Nat.zero_le _) ih

theorem size_line_pos (r : Record) : 0 < r.line.utf8ByteSize := by
  simp only [Record.line, String.utf8ByteSize_append]
  have hbracket : "[".utf8ByteSize = 1 := by decide
  omega

/-- All is written that the installed logger lets through if and only if none of it is held back by the
threshold that it is stamped with. -/
theorem logText_eq_written_iff (t : Threshold) (records : List (Threshold × Record)) :
    logText t records = written t (records.map Prod.snd) ↔
      ∀ u r, (u, r) ∈ records → t.allows r.severity → u.allows r.severity := by
  induction records with
  | nil => exact iff_of_true rfl fun _ _ h => nomatch h
  | cons x rest ih =>
    obtain ⟨u, r⟩ := x
    have hmem : (∀ u' r', (u', r') ∈ (u, r) :: rest → t.allows r'.severity → u'.allows r'.severity) ↔
        (t.allows r.severity → u.allows r.severity) ∧
          ∀ u' r', (u', r') ∈ rest → t.allows r'.severity → u'.allows r'.severity := by
      simp [or_imp, forall_and]
    rw [hmem, ← ih, logText_cons, List.map_cons, written_cons]
    cases ht : t.allows r.severity with
    | false => simp
    | true =>
      cases hu : u.allows r.severity with
      | true => simp
      | false =>
        -- the line of the record is missing, so what is written is too short
        refine iff_of_false (fun h => ?_) (by simp)
        have hsize := congrArg String.utf8ByteSize h
        have hle := size_logText_le t rest
        have hpos := size_line_pos r
        simp only [Bool.false_and, Bool.false_eq_true, if_false, if_true,
          String.utf8ByteSize_append, String.utf8ByteSize_empty] at hsize
        omega

end Log

theorem ite_toByteArray_append (c : Prop) [Decidable c] (a b : String) :
    (if c then (a ++ b).toByteArray else .empty) =
      (if c then a.toByteArray else .empty) ++ if c then b.toByteArray else .empty := by
  split
  · exact String.toByteArray_append
  · exact ByteArray.append_empty.symm

/-! ## Whole runs -/

namespace Session

variable {p q : Session} {t : Threshold} {d : Destination} {events : List LogEvent}

/-- What events do to a process one after the other. -/
inductive RunsTo : Session → List LogEvent → Session → Prop
  | nil (p : Session) : RunsTo p [] p
  | cons {p q q' : Session} {e : LogEvent} {rest : List LogEvent} (hstep : p.StepsTo e q)
      (hrest : RunsTo q rest q') : RunsTo p (e :: rest) q'

theorem events_append (p : Session) (before after : List LogAction) :
    p.events (before ++ after) = p.events before ++ (p.performAll before).events after := by
  induction before generalizing p with
  | nil => rfl
  | cons a rest ih => exact congrArg (a.event p :: ·) (ih _)

theorem answers_eq (p : Session) (actions : List LogAction) :
    p.answers actions = (p.events actions).map LogEvent.answer? := by
  induction actions generalizing p with
  | nil => rfl
  | cons a rest ih => rw [answers, events, List.map_cons, a.answer?_event, ih]

/-- What is recorded does not depend on what becomes of calls. -/
theorem map_stamped_events (p : Session) (u : Threshold) (actions : List LogAction) :
    (LogEvent.stamped u (p.events actions)).map Prod.snd = actions.filterMap LogAction.record? := by
  induction actions generalizing p u with
  | nil => rfl
  | cons a rest ih =>
    cases a with
    | configure env directory level retention =>
      rw [events, LogAction.event]
      cases (openLog env p.files directory).1 <;> exact ih _ _
    | configureFromEnvironment env =>
      rw [events, LogAction.event]
      cases (openLog env p.files (env "AQLFILTER_LOG_DIR")).1 <;> exact ih _ _
    | record r => exact congrArg (r :: ·) (ih _ _)

theorem runsTo_performAll (p : Session) (actions : List LogAction) :
    p.RunsTo (p.events actions) (p.performAll actions) := by
  induction actions generalizing p with
  | nil => exact .nil p
  | cons a rest ih => exact .cons (a.stepsTo_perform p) (ih _)

/-- A logger is installed with a threshold and a destination, which is open. -/
structure LogsTo (p : Session) (t : Threshold) (d : Destination) : Prop where
  installed : p.logger.installed = some (t, d)
  isOpen : p.IsOpen d

/-- The state in which a text has been written to a destination. -/
def writeTo (p : Session) (text : String) : Destination → Session
  | .stderr => p.complain text
  | .file place => { p with files := p.files.append place text }

theorem bytesAt_writeTo (hopen : p.IsOpen d) (text : String) (d' : Destination) :
    (p.writeTo text d).bytesAt d' =
      p.bytesAt d' ++ if d' = d then text.toByteArray else .empty := by
  cases d with
  | stderr =>
    cases d' with
    | stderr => exact String.toByteArray_append
    | file place' => exact ByteArray.append_empty.symm
  | file place =>
    cases d' with
    | stderr => exact ByteArray.append_empty.symm
    | file place' =>
      simp only [Destination.file.injEq]
      exact p.files.bytesAt_append hopen text place'

theorem isOpen_writeTo (hopen : p.IsOpen d) (text : String) : (p.writeTo text d).IsOpen d := by
  cases d with
  | stderr => trivial
  | file place => exact FileTree.hasFile_append hopen text

/-- Where no logger is installed, nothing is written. -/
theorem record_of_none (h : p.logger.installed = none) (r : Record) : p.record r = p := by
  rw [record, Logger.destination?, h]

namespace LogsTo

/-- A record is written to the destination of the installed logger, if it passes both the maximum and
the threshold. -/
theorem record_eq (h : p.LogsTo t d) (r : Record) : p.record r =
    if p.logger.maximum.allows r.severity && t.allows r.severity then p.writeTo r.line d else p := by
  by_cases hpass : (p.logger.maximum.allows r.severity && t.allows r.severity) = true
  · simp only [record, Logger.destination?, h.installed, if_pos hpass]
    cases d <;> rfl
  · simp only [record, Logger.destination?, h.installed, if_neg hpass]

theorem logger_record (h : p.LogsTo t d) (r : Record) : (p.record r).logger = p.logger := by
  rw [h.record_eq]
  split
  · cases d <;> rfl
  · rfl

theorem bytesAt_record (h : p.LogsTo t d) (r : Record) (d' : Destination) :
    (p.record r).bytesAt d' =
      p.bytesAt d' ++ if d' = d then (logText t [(p.logger.maximum, r)]).toByteArray else .empty := by
  rw [h.record_eq, logText_cons, logText_nil, String.append_empty]
  split
  · exact bytesAt_writeTo h.isOpen r.line d'
  · rw [String.toByteArray_empty, ite_self, ByteArray.append_empty]

/-- An installed logger stays, and so does what it writes to. -/
theorem step {e : LogEvent} (h : p.LogsTo t d) (hstep : p.StepsTo e q) : q.LogsTo t d := by
  cases hstep with
  | configured hextends hopen hlogger =>
    -- the destination that was opened now is not the one that is written to
    refine ⟨?_, hextends.isOpen h.isOpen⟩
    rw [hlogger, Logger.configure, h.installed]
    rfl
  | refused hextends hlogger => exact ⟨hlogger ▸ h.installed, hextends.isOpen h.isOpen⟩
  | recorded r =>
    refine ⟨h.logger_record r ▸ h.installed, ?_⟩
    rw [h.record_eq]
    split
    · exact isOpen_writeTo h.isOpen r.line
    · exact h.isOpen

/-- Once a logger is installed, what it writes to holds the text of the records that follow, and nothing
else changes anywhere. -/
theorem bytesAt_run (h : p.LogsTo t d) (hrun : p.RunsTo events q) (d' : Destination) :
    q.bytesAt d' = p.bytesAt d' ++
      if d' = d then (logText t (LogEvent.stamped p.logger.maximum events)).toByteArray
      else .empty := by
  induction hrun with
  | nil p =>
    rw [LogEvent.stamped, logText_nil, String.toByteArray_empty, ite_self, ByteArray.append_empty]
  | cons hstep hrest ih =>
    rw [ih (h.step hstep)]
    cases hstep with
    | configured hextends hopen hlogger =>
      rw [hextends.bytesAt_eq, hlogger]
      rfl
    | refused hextends hlogger =>
      rw [hextends.bytesAt_eq, hlogger]
      rfl
    | recorded r =>
      rw [h.bytesAt_record, h.logger_record, ByteArray.append_assoc, ← ite_toByteArray_append,
        ← logText_append]
      rfl

end LogsTo

/-- Up to the first call that succeeds nothing is written, and that call installs its logger. -/
theorem bytesAt_first_run {before after : List LogEvent} (hnone : p.logger.installed = none)
    (hrun : p.RunsTo (before ++ .configured t d :: after) q)
    (hfirst : ∀ e ∈ before, e.answer? ≠ some (.ok ())) (d' : Destination) :
    q.bytesAt d' = p.bytesAt d' ++
      if d' = d then (logText t (LogEvent.stamped t after)).toByteArray else .empty := by
  -- the induction is on the events before the call: none installs a logger, so none writes
  induction before generalizing p with
  | nil =>
    cases hrun with
    | cons hstep hrest =>
      cases hstep with
      | configured hextends hopen hlogger =>
        have hinstalls : LogsTo _ t d := ⟨by rw [hlogger, Logger.configure, hnone]; rfl, hopen⟩
        rw [hinstalls.bytesAt_run hrest, hextends.bytesAt_eq, hlogger]
        rfl
  | cons e before ih =>
    rw [List.forall_mem_cons] at hfirst
    cases hrun with
    | cons hstep hrest =>
      cases hstep with
      | configured hextends hopen hlogger => exact absurd rfl hfirst.1
      | refused hextends hlogger =>
        rw [ih (hlogger ▸ hnone) hrest hfirst.2, hextends.bytesAt_eq]
      | recorded r =>
        rw [record_of_none hnone] at hrest
        exact ih hnone hrest hfirst.2

/-- A process without a logger writes nothing until a call succeeds. The first one that does decides
where records go. From then on a record is written there if and only if it passes the threshold of that
call and the one of the latest call that has succeeded, and nothing is written anywhere else. So what is
written is what the first call lets through if and only if no later call holds any of it back. -/
theorem bytesAt_performAll_first {before after : List LogAction} {a : LogAction}
    (hnone : p.logger.installed = none) (hbefore : some (.ok ()) ∉ p.answers before)
    (hfirst : (a.perform (p.performAll before)).1 = some (.ok ())) :
    ∃ t d, a.event (p.performAll before) = .configured t d ∧
      let records := LogEvent.stamped t ((a.perform (p.performAll before)).2.events after)
      (∀ d', (p.performAll (before ++ a :: after)).bytesAt d' =
        p.bytesAt d' ++ if d' = d then (logText t records).toByteArray else .empty) ∧
      ((∀ d', (p.performAll (before ++ a :: after)).bytesAt d' = p.bytesAt d' ++
          if d' = d then (written t (after.filterMap LogAction.record?)).toByteArray else .empty) ↔
        ∀ u r, (u, r) ∈ records → t.allows r.severity → u.allows r.severity) := by
  obtain ⟨t, d, hevent⟩ := LogEvent.exists_configured ((a.answer?_event _).trans hfirst)
  refine ⟨t, d, hevent, ?_⟩
  intro records
  have hrun := p.runsTo_performAll (before ++ a :: after)
  rw [events_append, events, hevent] at hrun
  have hholds := bytesAt_first_run hnone hrun fun e he hok =>
    hbefore (p.answers_eq before ▸ List.mem_map.2 ⟨e, he, hok⟩)
  refine ⟨hholds, ?_⟩
  rw [← logText_eq_written_iff, map_stamped_events]
  constructor
  · intro hlets
    have hsame := (hholds d).symm.trans (hlets d)
    rw [if_pos rfl, if_pos rfl, ByteArray.append_right_inj, String.toByteArray_inj] at hsame
    exact hsame
  · intro hsame d'
    rw [hholds d', hsame]

/-- A call is refused because a file is in the way, the next one opens a log file, and a later one, for
another directory, asks for graver records: the log file holds what passes both, which is less than the
first one lets through, and nothing is logged elsewhere. -/
theorem bytesAt_performAll_first_two :
    let env : Settings.Environment := fun name =>
      if name = "AQLFILTER_LOG_DIR" then some "other"
      else if name = "AQLFILTER_LOG_LEVEL" then some "warn" else none
    let p := Session.initial ⟨[(["w"], .directory), (["w", "f"], .file .empty)], ["w"]⟩
    let before : List LogAction :=
      [.configure env (some "f") (some "trace") none, .record (.warn "lost")]
    let a := LogAction.configure env (some "logs") (some "debug") (some 3)
    let after : List LogAction := [.record (.debug "kept"), .record (.trace "fine"),
      .configureFromEnvironment env, .record (.debug "held back"), .record (.warn "grave")]
    let q := p.performAll (before ++ a :: after)
    p.answers before = [some (.error (.io none .alreadyExists)), none] ∧
      (a.perform (p.performAll before)).1 = some (.ok ()) ∧
      q.bytesAt (.file ["w", "logs", "aqlfilter.log"]) =
        "[DEBUG] kept\n[WARN] grave\n".toByteArray ∧
      ∀ d, d ≠ .file ["w", "logs", "aqlfilter.log"] → q.bytesAt d = p.bytesAt d := by
  intro env p before a after q
  have hbefore : p.answers before = [some (.error (.io none .alreadyExists)), none] := by
    decide +kernel
  have hfirst : (a.perform (p.performAll before)).1 = some (.ok ()) := by decide +kernel
  have hopened : a.event (p.performAll before) =
      .configured (.upTo .debug) (.file ["w", "logs", "aqlfilter.log"]) := by decide +kernel
  obtain ⟨t, d, hevent, hbytes, -⟩ :=
    bytesAt_performAll_first (p := p) (a := a) rfl (by rw [hbefore]; decide) hfirst
  obtain ⟨rfl, rfl⟩ := LogEvent.configured.inj (hevent.symm.trans hopened)
  refine ⟨hbefore, hfirst, (hbytes _).trans (by decide +kernel), fun d hd => ?_⟩
  rw [hbytes d, if_neg hd, ByteArray.append_empty]

/-- The second call holds back a record that the first one lets through: nothing is written, though the
record is grave enough for the logger that is installed. -/
theorem bytesAt_performAll_first_lowered :
    let env : Settings.Environment := fun _ => none
    let p := Session.initial ⟨[], []⟩
    let r := Record.debug "parsed 1 filter(s)"
    let actions : List LogAction :=
      [.configure env none (some "debug") none, .configure env none (some "warn") none, .record r]
    p.answers actions = [some (.ok ()), some (.ok ()), none] ∧
      p.events actions =
        [.configured (.upTo .debug) .stderr, .configured (.upTo .warn) .stderr, .recorded r] ∧
      (Threshold.upTo .debug).allows r.severity = true ∧
      (p.performAll actions).bytesAt .stderr = p.bytesAt .stderr ∧
      (p.performAll actions).bytesAt .stderr ≠
        p.bytesAt .stderr ++ (written (.upTo .debug) [r]).toByteArray := by
  decide +kernel

end Session

end FilterClause
