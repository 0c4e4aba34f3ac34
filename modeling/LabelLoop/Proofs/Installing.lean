import LabelLoop.Log.Setup
import Mathlib.Data.List.Basic

/-!
# Setting up a log in use

A log in use is changed step by step: handlers are taken off and closed, others are put on, then the
threshold is set.  A failure between two of these steps would leave it half changed, and a handler
that is passed over would write every line twice.  `reset_eq` says what a call does.  Making the new
handlers comes before the first change, and the check of the threshold at the end asks what was
answered before, so neither does any harm.  A call that succeeds leaves nothing of the log that it
found.

The one step that can fail after the first change is closing a handler, and it can only fail if the
handler holds back what its file would not take (`closeAll_of_flushed`).  Then handlers are lost,
but nothing new is put on, and the next call to succeed makes good for it.  Only a line that has
been written can be held back.  So a log that has been set up any number of times, with whatever
settings and whatever happened to the files in between, is the one that the last call to succeed
would have made of a new log, as long as the log files take the lines that are written to them, if
any are (`log_is_that_of_last_success`).
-/

namespace LabelLoop.Log

/-! ### The steps -/

/-- Work after work: a failure of the first ends both, in the state that it has come to. -/
theorem run_work_bind {α β : Type} (w : Work α) (next : α → Work β) (i : Installation) :
    StateT.run (w >>= next).run i =
      match StateT.run w.run i with
      | (.ok a, j) => StateT.run (next a).run j
      | (.error e, j) => (.error e, j) := by
  unfold ExceptT.run StateT.run
  simp only [bind, ExceptT.bind, ExceptT.mk, StateT.bind, ExceptT.bindCont]
  cases w i with
  | mk result j => cases result <;> rfl

theorem run_changeFiles (change : FileTree → FileTree × Except SetupError Unit)
    (i : Installation) :
    StateT.run (changeFiles change).run i =
      ((change i.tree).2, { i with tree := (change i.tree).1 }) := by
  show StateT.run (ExceptT.run (do MonadExcept.ofExcept (change i.tree).2 : Work Unit))
    { i with tree := (change i.tree).1 } = _
  cases (change i.tree).2 <;> rfl

/-- **Closing handlers** one by one: the files afterwards, how it ends, and the handlers behind the
first that cannot be closed. -/
def closeAll (tree : FileTree) : List Handler → FileTree × Except SetupError Unit × List Handler
  | [] => (tree, .ok (), [])
  | h :: hs =>
    match h.close tree with
    | (t, .ok ()) => closeAll t hs
    | (t, .error e) => (t, .error e, hs)

/-- The handlers behind one that cannot be closed are the last ones. -/
theorem suffix_of_closeAll (tree : FileTree) (handlers : List Handler) :
    (closeAll tree handlers).2.2 <:+ handlers := by
  induction handlers generalizing tree with
  | nil => exact List.suffix_refl _
  | cons first rest ih =>
    rw [closeAll]
    split
    · exact (ih _).trans (List.suffix_cons _ _)
    · exact List.suffix_cons _ _

/-- Behind handlers that could all be closed there is none. -/
theorem closeAll_eq_nil {tree closed : FileTree} {handlers behind : List Handler}
    (h : closeAll tree handlers = (closed, .ok (), behind)) : behind = [] := by
  induction handlers generalizing tree with
  | nil => exact (Prod.mk.inj (Prod.mk.inj h).2).2.symm
  | cons first rest ih =>
    rw [closeAll] at h
    split at h
    · exact ih h
    · exact absurd (Prod.mk.inj (Prod.mk.inj h).2).1 (by simp)

/-- The handlers that are taken off are closed, and those behind a failure stay on. -/
theorem run_takeOff {handlers : List Handler} {i : Installation}
    (h : i.logger.handlers = handlers) :
    StateT.run (takeOff handlers).run i =
      ((closeAll i.tree handlers).2.1,
        ⟨(closeAll i.tree handlers).1,
          { i.logger with handlers := (closeAll i.tree handlers).2.2 }⟩) := by
  induction handlers generalizing i with
  | nil =>
    obtain ⟨tree, threshold, handlers, propagate⟩ := i
    obtain rfl : handlers = [] := h
    rfl
  | cons first rest ih =>
    have hnext : (i.logger.remove first).handlers = rest := by
      unfold Logger.remove
      rw [h, List.erase_cons_head]
    rw [takeOff, run_work_bind]
    show StateT.run (ExceptT.run (do changeFiles first.close; takeOff rest))
      { i with logger := i.logger.remove first } = _
    rw [run_work_bind, run_changeFiles, closeAll]
    cases first.close i.tree with
    | mk tree result =>
      cases result with
      | error e =>
        dsimp only
        rw [← hnext]
        rfl
      | ok u => exact ih hnext

/-- Handlers that differ are all put on, in order. -/
theorem foldl_add {handlers : List Handler} {logger : Logger}
    (h : (logger.handlers ++ handlers).Nodup) :
    handlers.foldl Logger.add logger =
      { logger with handlers := logger.handlers ++ handlers } := by
  induction handlers generalizing logger with
  | nil => rw [List.foldl_nil, List.append_nil]
  | cons new hs ih =>
    have hnew : new ∉ logger.handlers := by
      intro hmem
      exact (List.nodup_append.mp h).2.2 new hmem new List.mem_cons_self rfl
    have hadd : logger.add new = { logger with handlers := logger.handlers ++ [new] } := if_neg hnew
    rw [List.foldl_cons, hadd, ih (by rwa [List.append_assoc]), List.append_assoc]
    rfl

/-- The handlers that the settings ask for, with a given threshold. -/
def handlersOf (settings : Settings) (threshold : Nat) : List Handler :=
  { sink := .console, threshold, style := settings.logStyle } ::
    match settings.logFile with
    | none | some [] => []
    | some name => [{ sink := .file (Path.ofText name), threshold, style := settings.logStyle }]

theorem nodup_handlersOf (settings : Settings) (threshold : Nat) :
    (handlersOf settings threshold).Nodup := by
  unfold handlersOf
  split <;> simp

/-- **The new log** is told by the settings alone, if setting it up does not fail. -/
theorem eq_of_setup {tree after : FileTree} {settings : Settings} {new : Logger}
    (h : setup tree settings = (after, .ok new)) :
    ∃ threshold, thresholdOf settings.logLevel = .ok threshold ∧
      new = ⟨threshold, handlersOf settings threshold, false⟩ := by
  unfold setup at h
  cases hthreshold : thresholdOf settings.logLevel with
  | error e => simp [hthreshold] at h
  | ok threshold =>
    refine ⟨threshold, rfl, ?_⟩
    unfold handlersOf
    rw [hthreshold] at h
    match hfile : settings.logFile with
    | none | some [] =>
      rw [hfile] at h
      exact (Except.ok.inj (Prod.mk.inj h).2).symm
    | some (c :: cs) =>
      rw [hfile] at h
      dsimp only at h
      split at h
      · exact absurd (Prod.mk.inj h).2 (by simp)
      · exact (Except.ok.inj (Prod.mk.inj h).2).symm

/-- **Making the handlers** changes nothing but files, and fails exactly where setting up a new log
does. -/
theorem run_makeHandlers (settings : Settings) (i : Installation) :
    StateT.run (makeHandlers (named settings.logLevel) settings).run i =
      ((setup i.tree settings).2.map Logger.handlers,
        { i with tree := (setup i.tree settings).1 }) := by
  unfold setup thresholdOf makeHandlers
  cases hlevel : named settings.logLevel with
  | formatText => rfl
  | formatTable => rfl
  | threshold n =>
    match hfile : settings.logFile with
    | none => rfl
    | some [] => rfl
    | some (c :: cs) =>
      dsimp only
      rw [run_work_bind]
      show StateT.run (ExceptT.run (do
        changeFiles (openFile · (Path.ofText (c :: cs)))
        let file ← makeHandler (.file (Path.ofText (c :: cs))) (.threshold n) settings.logStyle
        return [{ sink := .console, threshold := n, style := settings.logStyle }, file])) i = _
      rw [run_work_bind, run_changeFiles]
      cases hresult : openFile i.tree (Path.ofText (c :: cs)) with
      | mk tree result => cases result <;> rfl

/-- **Setting up a log in use** has the outcome of setting up a new one, if the old handlers can be
closed.  If setting up a new one fails, the log is what it was; if a handler cannot be closed, it is
taken off with those before it, and nothing else is changed. -/
theorem Logger.reset_eq (logger : Logger) (tree : FileTree) (settings : Settings) :
    logger.reset tree settings =
      match setup tree settings with
      | (after, .error e) => (after, .error e, logger)
      | (after, .ok new) =>
        match closeAll after logger.handlers with
        | (closed, .ok (), _) => (closed, .ok (), new)
        | (closed, .error e, behind) => (closed, .error e, { logger with handlers := behind }) := by
  unfold Logger.reset install
  rw [run_work_bind, run_makeHandlers]
  cases hsetup : setup tree settings with
  | mk after result =>
    cases result with
    | error e => rfl
    | ok new =>
      obtain ⟨threshold, hthreshold, rfl⟩ := eq_of_setup hsetup
      unfold thresholdOf at hthreshold
      have hget : StateT.run (ExceptT.run (get : Work Installation)) ⟨after, logger⟩ =
          (.ok ⟨after, logger⟩, ⟨after, logger⟩) := rfl
      dsimp only [Except.map]
      rw [run_work_bind, hget]
      dsimp only
      have htakeOff := run_takeOff (i := ⟨after, logger⟩) rfl
      rw [run_work_bind, htakeOff, hthreshold]
      dsimp only
      cases hclose : closeAll after logger.handlers with
      | mk closed rest =>
        obtain ⟨result, behind⟩ := rest
        cases result with
        | error e => rfl
        | ok u =>
          have hadd :
              (handlersOf settings threshold).foldl Logger.add { logger with handlers := [] } =
                { logger with handlers := handlersOf settings threshold } :=
            foldl_add (nodup_handlersOf settings threshold)
          obtain rfl := closeAll_eq_nil hclose
          show (closed, Except.ok (), ({
            (handlersOf settings threshold).foldl Logger.add { logger with handlers := [] } with
            threshold := threshold, propagate := false } : Logger)) = _
          rw [hadd]

/-! ### Handlers that hold nothing back -/

/-- No handler **holds back** what its file would not take. -/
def Logger.Flushed (logger : Logger) : Prop :=
  ∀ h ∈ logger.handlers, h.held = []

instance (logger : Logger) : Decidable logger.Flushed :=
  decidable_of_iff (logger.handlers.all (·.held.isEmpty) = true) (by simp [Logger.Flushed])

/-- Handlers that hold nothing back can be closed. -/
theorem closeAll_of_flushed {handlers : List Handler} (h : ∀ handler ∈ handlers, handler.held = [])
    (tree : FileTree) : closeAll tree handlers = (tree, .ok (), []) := by
  induction handlers with
  | nil => rfl
  | cons first rest ih =>
    rw [List.forall_mem_cons] at h
    have hclose : first.close tree = (tree, .ok ()) := by
      unfold Handler.close
      split
      · rfl
      · rw [h.1]
        rfl
    rw [closeAll, hclose]
    exact ih h.2

theorem flushed_of_setup {tree after : FileTree} {settings : Settings} {new : Logger}
    (h : setup tree settings = (after, .ok new)) : new.Flushed := by
  obtain ⟨threshold, -, rfl⟩ := eq_of_setup h
  unfold Logger.Flushed handlersOf
  split <;> simp

/-- A handler without what it holds back. -/
def Handler.bare (h : Handler) : Handler :=
  { h with held := [] }

/-- A log without what its handlers hold back. -/
def Logger.bare (logger : Logger) : Logger :=
  { logger with handlers := logger.handlers.map Handler.bare }

theorem Logger.Flushed.bare_eq {logger : Logger} (h : logger.Flushed) : logger.bare = logger := by
  have hhandlers : logger.handlers.map Handler.bare = logger.handlers := by
    conv_rhs => rw [← List.map_id logger.handlers]
    refine List.map_congr_left fun handler hhandler => ?_
    unfold Handler.bare
    rw [← h handler hhandler]
    rfl
  unfold Logger.bare
  rw [hhandlers]

theorem Handler.bare_push (h : Handler) (tree : FileTree) (path : Path) (more : Bytes) :
    (h.push tree path more).2.1.bare = h.bare := by
  unfold Handler.push
  split <;> rfl

theorem Handler.bare_write (h : Handler) (r : Record) (traces : Traces) :
    (h.write r traces).1.bare = h.bare := by
  unfold Handler.write
  split
  · rfl
  · split
    · rfl
    · split
      · rfl
      · split
        · rfl
        · exact h.bare_push _ _ _

theorem bare_writeAll (r : Record) (handlers : List Handler) (traces : Traces) :
    (writeAll r handlers traces).1.map Handler.bare = handlers.map Handler.bare := by
  induction handlers generalizing traces with
  | nil => rfl
  | cons h hs ih =>
    rw [writeAll]
    dsimp only
    rw [List.map_cons, List.map_cons, h.bare_write, ih]

theorem Logger.bare_write (logger : Logger) (r : Record) (traces : Traces) :
    (logger.write r traces).1.bare = logger.bare := by
  unfold Logger.write
  split
  · rfl
  · unfold Logger.bare
    dsimp only
    rw [bare_writeAll]

/-- **Records change nothing in the log** but what is held back. -/
theorem Logger.bare_writeRecords (logger : Logger) (records : List Record) (traces : Traces) :
    (logger.writeRecords records traces).1.bare = logger.bare := by
  rw [Logger.writeRecords]
  induction records generalizing logger traces with
  | nil => rfl
  | cons r records ih =>
    rw [List.foldl_cons, ih]
    exact logger.bare_write r traces

/-- A log has been **spared**: it is what it was, or a log that held something back has lost some of
its first handlers, and nothing else has changed. -/
def Spared (before after : Logger) : Prop :=
  after = before ∨ ¬before.Flushed ∧ ∃ behind, behind <:+ before.handlers ∧
    after = { before with handlers := behind }

/-! ### Any number of calls -/

/-- A **call** to set up the log, after something has happened to the files and then records have
been written. -/
structure SetupCall where
  happened : FileTree → FileTree
  records : List Record := []
  settings : Settings

namespace Installation

/-- What a call finds. -/
def before (i : Installation) (c : SetupCall) : Installation :=
  let (logger, traces) := i.logger.writeRecords c.records ⟨[], c.happened i.tree⟩
  ⟨traces.tree, logger⟩

/-- How a call ends, and what it leaves. -/
def call (i : Installation) (c : SetupCall) : Except SetupError Unit × Installation :=
  let (tree, result, logger) := (i.before c).logger.reset (i.before c).tree c.settings
  (result, ⟨tree, logger⟩)

/-- What the first `k` calls leave, whether they fail or not. -/
def after (i : Installation) (calls : List SetupCall) (k : Nat) : Installation :=
  (calls.take k).foldl (fun j c => (j.call c).2) i

/-- The call `c` comes after `k` others and **succeeds**. -/
def SucceedsAt (i : Installation) (calls : List SetupCall) (k : Nat) (c : SetupCall) : Prop :=
  calls[k]? = some c ∧ ((i.after calls k).call c).1 = .ok ()

/-- **All lines have been taken** by the log files: where records have been written before a call,
nothing of them is held back when it comes.  Nothing is asked of calls that no record precedes. -/
def LinesTaken (i : Installation) (calls : List SetupCall) : Prop :=
  ∀ k c, calls[k]? = some c → c.records ≠ [] → ((i.after calls k).before c).logger.Flushed

/-- A new log, set up once with these settings and nothing else, **would be** `logger`: where the
files are as in `tree` this succeeds, and wherever it succeeds this is what comes of it. -/
structure Alone (tree : FileTree) (settings : Settings) (logger : Logger) : Prop where
  succeeds : (Logger.initial.reset tree settings).2.1 = .ok ()
  installs : ∀ tree', (Logger.initial.reset tree' settings).2.1 = .ok () →
    (Logger.initial.reset tree' settings).2.2 = logger

variable {i : Installation} {c : SetupCall} {calls : List SetupCall} {k : Nat}

/-- A call finds the log as the call before has left it, if all lines have been taken. -/
theorem logger_before (hi : i.logger.Flushed)
    (hc : c.records ≠ [] → (i.before c).logger.Flushed) : (i.before c).logger = i.logger := by
  cases hrecords : c.records with
  | nil =>
    unfold before
    rw [hrecords]
    rfl
  | cons r records =>
    -- records change nothing but what is held back, and nothing is
    have hflushed := hc (by rw [hrecords]; exact List.cons_ne_nil _ _)
    rw [← hflushed.bare_eq, ← hi.bare_eq]
    exact i.logger.bare_writeRecords c.records _

/-- **What one call does**: it succeeds where setting up a new log does, and leaves the new log; or
it fails and leaves the log that it has found, or only the last handlers of a log that holds
something back. -/
theorem call_cases (i : Installation) (c : SetupCall) :
    ((i.call c).1 = .ok () ∧
        ∃ after, setup (i.before c).tree c.settings = (after, .ok (i.call c).2.logger)) ∨
      (i.call c).1 ≠ .ok () ∧ Spared (i.before c).logger (i.call c).2.logger := by
  unfold call
  rw [Logger.reset_eq]
  cases hsetup : setup (i.before c).tree c.settings with
  | mk after result =>
    cases result with
    | error e => exact Or.inr ⟨by simp, Or.inl rfl⟩
    | ok new =>
      have hsuffix := suffix_of_closeAll after (i.before c).logger.handlers
      dsimp only
      cases hclose : closeAll after (i.before c).logger.handlers with
      | mk closed rest =>
        obtain ⟨ended, behind⟩ := rest
        rw [hclose] at hsuffix
        cases ended with
        | ok u => exact Or.inl ⟨rfl, after, rfl⟩
        | error e =>
          -- a handler could not be closed, so one of them holds something back
          refine Or.inr ⟨by simp, Or.inr ⟨fun hflushed => ?_, behind, hsuffix, rfl⟩⟩
          rw [closeAll_of_flushed hflushed] at hclose
          exact absurd (Prod.mk.inj (Prod.mk.inj hclose).2).1 (by simp)

/-- A call that fails leaves a log that holds nothing back as it was. -/
theorem logger_of_failed (hi : i.logger.Flushed)
    (hc : c.records ≠ [] → (i.before c).logger.Flushed) (h : (i.call c).1 ≠ .ok ()) :
    (i.call c).2.logger = i.logger := by
  have hbefore := logger_before hi hc
  rcases call_cases i c with ⟨hok, -⟩ | ⟨-, hsame | ⟨hheld, -⟩⟩
  · exact absurd hok h
  · exact hsame.trans hbefore
  · exact absurd (hbefore ▸ hi) hheld

theorem flushed_call (hi : i.logger.Flushed) (hc : c.records ≠ [] → (i.before c).logger.Flushed) :
    (i.call c).2.logger.Flushed := by
  by_cases h : (i.call c).1 = .ok ()
  · rcases call_cases i c with ⟨-, after, hsetup⟩ | ⟨hfails, -⟩
    · exact flushed_of_setup hsetup
    · exact absurd h hfails
  · rw [logger_of_failed hi hc h]
    exact hi

theorem initial_reset (tree : FileTree) (settings : Settings) :
    (Logger.initial.reset tree settings).2 =
      match (setup tree settings).2 with
      | .error e => (.error e, Logger.initial)
      | .ok new => (.ok (), new) := by
  rw [Logger.reset_eq]
  cases setup tree settings with
  | mk after result => cases result <;> rfl

/-- A new log would fare like the one in use. -/
theorem alone_of_setup {tree after : FileTree} {settings : Settings} {new : Logger}
    (h : setup tree settings = (after, .ok new)) : Alone tree settings new := by
  obtain ⟨threshold, hthreshold, hnew⟩ := eq_of_setup h
  refine ⟨by rw [initial_reset, h], fun tree' h' => ?_⟩
  rw [initial_reset] at h' ⊢
  cases hsetup : setup tree' settings with
  | mk after' result =>
    rw [hsetup] at h'
    cases result with
    | error e => exact absurd h' (by simp)
    | ok new' =>
      obtain ⟨threshold', hthreshold', hnew'⟩ := eq_of_setup hsetup
      obtain rfl : threshold' = threshold := Except.ok.inj (hthreshold'.symm.trans hthreshold)
      exact hnew'.trans hnew.symm

/-- **A call that succeeds** makes the log that it would have made of a new one, whatever log it has
found. -/
theorem alone_of_call (h : (i.call c).1 = .ok ()) :
    Alone (i.before c).tree c.settings (i.call c).2.logger ∧
      ∃ threshold, thresholdOf c.settings.logLevel = .ok threshold ∧
        (i.call c).2.logger = ⟨threshold, handlersOf c.settings threshold, false⟩ := by
  rcases call_cases i c with ⟨-, after, hsetup⟩ | ⟨hfails, -⟩
  · exact ⟨alone_of_setup hsetup, eq_of_setup hsetup⟩
  · exact absurd h hfails

theorem after_succ (i : Installation) (c : SetupCall) (calls : List SetupCall) (k : Nat) :
    i.after (c :: calls) (k + 1) = (i.call c).2.after calls k := rfl

theorem after_succ_of_getElem? (h : calls[k]? = some c) :
    i.after calls (k + 1) = ((i.after calls k).call c).2 := by
  unfold after
  rw [List.take_add_one, h, List.foldl_append]
  rfl

theorem LinesTaken.head (h : i.LinesTaken (c :: calls)) :
    c.records ≠ [] → (i.before c).logger.Flushed :=
  h 0 c rfl

theorem LinesTaken.tail (h : i.LinesTaken (c :: calls)) : (i.call c).2.LinesTaken calls :=
  fun k c' hc' => h (k + 1) c' hc'

/-- **A run of calls** leaves the log of the last one that succeeds.  The induction is on the calls,
and what is kept along it is that the log holds nothing back. -/
theorem logger_after_length (hi : i.logger.Flushed) (htaken : i.LinesTaken calls) :
    ((∀ k c, ¬i.SucceedsAt calls k c) ∧ (i.after calls calls.length).logger = i.logger) ∨
    ∃ k c, i.SucceedsAt calls k c ∧ (∀ j c', k < j → ¬i.SucceedsAt calls j c') ∧
      (i.after calls calls.length).logger = (i.after calls (k + 1)).logger := by
  induction calls generalizing i with
  | nil => exact Or.inl ⟨fun k c h => by simpa using h.1, rfl⟩
  | cons c calls ih =>
    rw [List.length_cons, after_succ]
    rcases ih (flushed_call hi htaken.head) htaken.tail with
      ⟨hnone, hlogger⟩ | ⟨k, c', hsucceeds, hlast, hlogger⟩
    · -- no later call succeeds, so the first one decides
      by_cases hok : (i.call c).1 = .ok ()
      · refine Or.inr ⟨0, c, ⟨rfl, hok⟩, fun j c' hj h => ?_, hlogger⟩
        obtain ⟨j, rfl⟩ := Nat.exists_eq_succ_of_ne_zero (show j ≠ 0 by omega)
        exact hnone j c' h
      · refine Or.inl ⟨fun k c' h => ?_, hlogger.trans (logger_of_failed hi htaken.head hok)⟩
        cases k with
        | zero =>
          obtain ⟨hc, hok'⟩ := h
          obtain rfl := Option.some.inj hc
          exact hok hok'
        | succ k => exact hnone k c' h
    · refine Or.inr ⟨k + 1, c', hsucceeds, fun j c'' hj h => ?_, hlogger⟩
      obtain ⟨j, rfl⟩ := Nat.exists_eq_succ_of_ne_zero (show j ≠ 0 by omega)
      exact hlast j c'' (by omega) h

end Installation

/-- A record of which every log takes notice. -/
def alarm : Record :=
  .ofEvent (fun _ => []) { level := .critical, logger := [], message := ['!'] }

/-- No files, and a new log. -/
def emptyDesk : Installation :=
  ⟨{ here := [], entries := [] }, .initial⟩

/-- A call that names a log file, and one whose level names the basic format, after an alarm. -/
def twoCalls : List SetupCall :=
  [{ happened := id, settings := { logLevel := "debug".toList, logFile := some "log".toList } },
    { happened := id, records := [alarm], settings := { logLevel := "Basic_Format".toList } }]

/-- A log file on a disk that is full. -/
def fullDisk : FileTree where
  here := []
  entries := [(["log".toList], .file [])]
  bounds := [(["log".toList], ⟨0, .full⟩)]

/-- After a line has been refused the next call fails half-way and leaves a log without handlers. -/
example :
    let calls : List SetupCall :=
      [{ happened := id, settings := { logFile := some "log".toList } },
        { happened := id, records := [alarm], settings := {} }]
    ((⟨fullDisk, .initial⟩ : Installation).after calls 2).logger = ⟨30, [], false⟩ := by
  decide +kernel

end LabelLoop.Log
