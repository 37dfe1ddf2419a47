import Chronon.Executor.Invoke
import Chronon.Runs.Events
import Chronon.Text.Slices

/-!
# What a failure leaves in its row

The text of a handler's error is sanitized before it is stored, but
`execute_script` has put the raw text into the captured output already, and the
row takes that over. Two errors with one sanitized form leave the same row only
if the merging of raw and sanitized text hides the difference.
-/

namespace Chronon
set_option autoImplicit false

/-! ## Substrings -/

section Substrings

theorem containsText_iff (text part : String) : containsText text part = true ↔ part.toList <:+: text.toList :=
  Text.isSome_findStr

theorem containsText_append_right (text part : String) : containsText (text ++ part) part = true := by
  rw [containsText_iff, String.toList_append]
  exact (List.suffix_append _ _).isInfix

theorem append_line_inj {text a b : String} : text ++ "\n" ++ a = text ++ "\n" ++ b ↔ a = b := by
  constructor
  · intro same
    have chars := congrArg String.toList same
    simpa [String.toList_inj] using chars
  · rintro rfl
    rfl

theorem line_inj {a b text : String} : a ++ "\n" ++ text = b ++ "\n" ++ text ↔ a = b := by
  constructor
  · intro same
    have chars := congrArg String.toList same
    simpa [String.toList_inj] using chars
  · rintro rfl
    rfl

theorem ne_append_line (text a : String) : text ≠ text ++ "\n" ++ a := by
  intro same
  have lengths := congrArg (fun s : String => s.toList.length) same
  simp at lengths

end Substrings

/-! ## Merging -/

/-- What `ensure_stderr_message` leaves in `stderr_text` for a message that is not empty. -/
def mergedText (stderr message : String) : String :=
  if stderr = "" then message
  else if containsText stderr message then stderr
  else stderr ++ "\n" ++ message

/-- `raw` and `raw'` leave the same text although they differ, because the sanitized text appended for `raw'` makes up
for it. -/
def AppendsTo (stderr raw raw' safe : String) : Prop :=
  (stderr ≠ "" ∧ containsText stderr raw' = true ∧ containsText stderr raw = false ∧ containsText stderr safe = false ∧
      raw = safe) ∨
    ((stderr = "" ∨ (containsText stderr raw = false ∧ containsText stderr raw' = false)) ∧
      raw = raw' ++ "\n" ++ safe ∧ containsText (if stderr = "" then raw' else stderr ++ "\n" ++ raw') safe = false)

/-- The captured output hides the difference between two raw texts with the sanitized form `safe`. -/
def HidesDifference (stderr raw raw' safe : String) : Prop :=
  raw = raw' ∨ (stderr ≠ "" ∧ containsText stderr raw = true ∧ containsText stderr raw' = true) ∨
    AppendsTo stderr raw raw' safe ∨ AppendsTo stderr raw' raw safe

section Merging

variable {stderr raw raw' safe a b : String}

theorem mergedText_ne (notEmpty : raw ≠ "") : mergedText stderr raw ≠ "" := by
  unfold mergedText
  split
  · exact notEmpty
  · rename_i output
    split
    · exact output
    · intro isEmpty
      have lengths := congrArg (fun s : String => s.toList.length) isEmpty
      simp at lengths

theorem ensureStderrMessage_text (logs : CapturedLogs) (notEmpty : raw ≠ "") :
    (logs.ensureStderrMessage raw).stderrText = some (mergedText (logs.stderrText.getD "") raw) := by
  unfold CapturedLogs.ensureStderrMessage mergedText
  rw [if_neg notEmpty]
  cases isText : logs.stderrText with
  | none => rfl
  | some existing =>
    dsimp only [Option.getD_some]
    by_cases output : existing = ""
    · simp [output]
    · simp only [output, ne_eq, not_false_eq_true, if_true, if_false]
      split <;> simp [isText]

/-- An empty message is nowhere missing. -/
theorem ensureStderrMessage_again (logs : CapturedLogs) {text : String} (isText : logs.stderrText = some text)
    (notEmpty : text ≠ "") (message : String) :
    (logs.ensureStderrMessage message).stderrText = some (mergedText text message) := by
  by_cases isEmpty : message = ""
  · subst isEmpty
    have inside : containsText text "" = true := by
      rw [containsText_iff]
      exact List.nil_infix
    rw [CapturedLogs.ensureStderrMessage, if_pos rfl, isText, mergedText, if_neg notEmpty, if_pos inside]
  · rw [ensureStderrMessage_text logs isEmpty, isText]
    rfl

/-- Two texts that differ become the same only if the message is appended to one of them and ends the other. -/
theorem mergedText_eq_iff (notEmpty : a ≠ "") (notEmpty' : b ≠ "") :
    mergedText a safe = mergedText b safe ↔ a = b ∨ (a = b ++ "\n" ++ safe ∧ containsText b safe = false) ∨
      (b = a ++ "\n" ++ safe ∧ containsText a safe = false) := by
  have ends (text : String) : containsText (text ++ "\n" ++ safe) safe = true := containsText_append_right _ _
  unfold mergedText
  rw [if_neg notEmpty, if_neg notEmpty']
  cases inA : containsText a safe <;> cases inB : containsText b safe
  · simp only [Bool.false_eq_true, if_false, line_inj, and_true]
    constructor
    · exact .inl
    · rintro (rfl | rfl | rfl)
      · rfl
      · rw [ends] at inA
        cases inA
      · rw [ends] at inB
        cases inB
  · simp only [Bool.false_eq_true, if_false, if_true, and_true, and_false, Bool.true_eq_false, false_or]
    constructor
    · exact fun same => .inr same.symm
    · rintro (rfl | same)
      · rw [inA] at inB
        cases inB
      · exact same.symm
  · simp only [Bool.false_eq_true, if_false, if_true, and_true, and_false, Bool.true_eq_false, or_false]
    constructor
    · exact .inr
    · rintro (rfl | same)
      · rw [inA] at inB
        cases inB
      · exact same
  · simp

/-- The captured output with the raw text: it shows the text unless it has it already. -/
theorem mergedText_raw_eq_iff :
    mergedText stderr raw = mergedText stderr raw' ↔
      raw = raw' ∨ (stderr ≠ "" ∧ containsText stderr raw = true ∧ containsText stderr raw' = true) := by
  unfold mergedText
  by_cases silent : stderr = ""
  · simp [silent]
  · simp only [silent, if_false, ne_eq, not_false_eq_true, true_and]
    cases inside : containsText stderr raw <;> cases inside' : containsText stderr raw'
    · simp only [Bool.false_eq_true, if_false, append_line_inj, false_and, or_false]
    · simp only [Bool.false_eq_true, if_false, if_true, false_and, or_false]
      constructor
      · exact fun same => absurd same.symm (ne_append_line _ _)
      · rintro rfl
        rw [inside] at inside'
        cases inside'
    · simp only [Bool.false_eq_true, if_false, if_true, and_false, or_false]
      constructor
      · exact fun same => absurd same (ne_append_line _ _)
      · rintro rfl
        rw [inside] at inside'
        cases inside'
    · simp

theorem appendsTo_iff :
    AppendsTo stderr raw raw' safe ↔ mergedText stderr raw = mergedText stderr raw' ++ "\n" ++ safe ∧
      containsText (mergedText stderr raw') safe = false := by
  have assoc : stderr ++ "\n" ++ raw' ++ "\n" ++ safe = stderr ++ "\n" ++ (raw' ++ "\n" ++ safe) := by
    simp only [String.append_assoc]
  unfold AppendsTo mergedText
  by_cases silent : stderr = ""
  · simp [silent]
  · simp only [silent, if_false, ne_eq, not_false_eq_true, true_and, false_or]
    cases inside : containsText stderr raw <;> cases inside' : containsText stderr raw'
    · simp only [Bool.false_eq_true, if_false, false_and, true_and, and_true, false_or, assoc, append_line_inj]
    · simp only [Bool.false_eq_true, if_false, if_true, true_and, and_false, false_and, or_false, append_line_inj,
        Bool.true_eq_false]
      exact and_comm
    · simp only [Bool.false_eq_true, if_false, if_true, false_and, Bool.true_eq_false, and_false, or_false, assoc,
        false_iff, not_and]
      exact fun same => absurd same (ne_append_line _ _)
    · simp only [if_true, Bool.true_eq_false, false_and, and_false, or_false, false_iff, not_and]
      exact fun same => absurd same (ne_append_line _ _)

/-- **Merging twice.** First the raw text is merged into the captured output, then the sanitized one. -/
theorem hidesDifference_iff (notEmpty : raw ≠ "") (notEmpty' : raw' ≠ "") :
    HidesDifference stderr raw raw' safe ↔
      mergedText (mergedText stderr raw) safe = mergedText (mergedText stderr raw') safe := by
  rw [mergedText_eq_iff (mergedText_ne notEmpty) (mergedText_ne notEmpty'), mergedText_raw_eq_iff, ← appendsTo_iff,
    ← appendsTo_iff, or_assoc]
  rfl

end Merging

/-! ## The two ways of a failed run into the store -/

/-- The rest of a slot's work once its script has ended: its row is completed, or its failure is finalized. -/
def afterScript (run : Run) (job : Job) (timeoutMs durationMs : Int) (ended : Option JoinOutcome) : Task Unit :=
  match statusResult timeoutMs ended with
  | (.ok (), logs) => do
    let now ← utcNow
    let _ ← call (.updateRun (completedRun run now durationMs logs))
  | (.error (status, err), logs) => finalizeFailedRun { run with durationMs := some durationMs } job status err (some logs)

theorem executeRun_eq (run : Run) (job : Job) :
    executeRun run job = (do
      let started ← utcNow
      let timeoutMs := job.timeoutMs.filter (0 < ·)
      let ended ← issue (.executeScript timeoutMs ⟨run.scriptName, run.actorJson, run.paramsJson, job.jobName, run.runId⟩)
      let finished ← utcNow
      afterScript run job (timeoutMs.getD 0) (numMilliseconds (finished - started)) ended) :=
  rfl

/-- A worker slot finalizes the failure itself; an executor sends an event that is handled. -/
inductive FailurePath where
  | worker (job : Job) (timeoutMs durationMs : Int)
  | event (durationMs : Int)

/-- What happens once the handler of `run` has returned the error `e`. -/
def FailurePath.task (path : FailurePath) (run : Run) (captured : CapturedLogs) (e : ChrononError) : Task Unit :=
  match path with
  | .worker job timeoutMs durationMs =>
    afterScript run job timeoutMs durationMs (some (.finished (executeScript (.error (mapInvokeError e)) captured)))
  | .event durationMs =>
    handleExecutorEvent (spawnRunEvent run.runId durationMs (executeScript (.error (mapInvokeError e)) captured))

/-- What is stored of an error. -/
def Run.persistedError (run : Run) : Option String × Option Json := (run.stderrText, run.errorJson)

/-- The row named `runId` holds the sanitized form of `error`, and `stderr` of it. -/
def World.HoldsFailure (w : World) (runId error : String) (stderr : String → Option String) : Prop :=
  ∃ message row, safeMessage error = some message ∧ w.run runId = some row ∧
    row.persistedError = (stderr message, some (.obj [("message", .str message)]))

section Paths

variable {w w' : World} {run old : Run} {job : Job} {error : String} {logs : CapturedLogs}

theorem append_ne_empty {a : String} (notEmpty : a ≠ "") (b : String) : a ++ b ≠ "" := by
  intro isEmpty
  have chars := congrArg String.toList isEmpty
  rw [String.toList_append, String.toList_empty, List.append_eq_nil_iff] at chars
  exact notEmpty (String.toList_inj.mp chars.1)

theorem toText_ne_empty (e : ChrononError) : e.toText ≠ "" := by
  cases e <;> repeat' apply append_ne_empty
  all_goals decide

/-- The retry is a row of its own. -/
theorem retryFailed_keeps {out : Option Unit} {id : String} (stored : w.run id = some old)
    (ends : Ends .calm (retryFailed run job) w out w') : w'.run id = some old := by
  obtain ⟨-, -, rfl⟩ | ⟨-, now, reads, -⟩ |
    ⟨-, now, w₁, scheduledFor, runId, w₂, r, reads, -, draws, creates, -⟩ := retryFailed_cases ends
  · exact stored
  · rw [World.run_congr reads.utcNow.2]
    exact stored
  · have same : w₂.store = w.store := draws.newUuid.2.2.trans reads.utcNow.2
    have fresh : w₁.run runId = none := draws.newUuid.1
    rw [World.run_congr reads.utcNow.2] at fresh
    obtain ⟨-, after⟩ := creates.createRun rfl
    rw [World.run_setRun after, World.run_congr same]
    split
    · rename_i named
      rw [show runId = id from named, stored] at fresh
      cases fresh
    · exact stored

/-- `finalize_failed_run` stores the sanitized text, merged into the captured output. -/
theorem finalizeFailedRun_persists (stored : w.run run.runId = some old)
    (ends : Ends .calm (finalizeFailedRun run job .failed error (some logs)) w (some ()) w') :
    w'.HoldsFailure run.runId error fun message => (logs.ensureStderrMessage message).stderrText := by
  unfold finalizeFailedRun at ends
  split at ends
  · obtain ⟨isNone, -⟩ := ends
    cases isNone
  · rename_i message safe
    obtain ⟨now, w₁, reads, r, w₂, updates, rest⟩ := ends
    have found : w₁.run (failedRun run .failed message (some logs) now).runId = some old := by
      rw [World.run_congr reads.utcNow.2]
      exact stored
    obtain ⟨rfl, after⟩ := updates.updateRun rfl found
    refine ⟨message, failedRun run .failed message (some logs) now, safe, ?_, rfl⟩
    refine retryFailed_keeps ?_ rest
    rw [World.run_setRun after]
    exact if_pos rfl

/-- So does the handling of a failure without its job. -/
theorem failWithoutJob_persists {text : String} (isText : logs.stderrText = some text) (notEmpty : text ≠ "")
    (stored : w.run run.runId = some old) (ends : Ends .calm (failWithoutJob run error logs) w (some ()) w') :
    w'.HoldsFailure run.runId error fun message => (logs.ensureStderrMessage message).stderrText := by
  unfold failWithoutJob at ends
  split at ends
  · obtain ⟨isNone, -⟩ := ends
    cases isNone
  · rename_i message safe
    obtain ⟨now, w₁, reads, r, w₂, updates, -, rfl⟩ := ends
    generalize isNew : applyLogs (run.fail now message) (logs.ensureStderrMessage message) = new at updates
    have ids : new.runId = run.runId := by rw [← isNew]; rfl
    have found : w₁.run new.runId = some old := by rw [World.run_congr reads.utcNow.2, ids, stored]
    obtain ⟨rfl, after⟩ := updates.updateRun rfl found
    refine ⟨message, new, safe, ?_, ?_⟩
    · rw [World.run_setRun after, if_pos ids]
    · show new.persistedError = ((logs.ensureStderrMessage message).stderrText, _)
      rw [← isNew, Run.persistedError, applyLogs, ensureStderrMessage_again logs isText notEmpty]
      rfl

/-- The captured output of a failed script has text: at least that of the error. -/
theorem executeScript_stderr (captured : CapturedLogs) (e : ChrononError) :
    (executeScript (.error e) captured).logs.stderrText = some (mergedText (captured.stderrText.getD "") e.toText) :=
  ensureStderrMessage_text captured (toText_ne_empty e)

/-- **What a failure leaves**, on either path: the sanitized text, and the raw one merged into the captured output with
the sanitized one merged in after it. -/
theorem FailurePath.persists {captured : CapturedLogs} {e : ChrononError} (path : FailurePath)
    (stored : w.run run.runId = some run) (running : run.status = .running)
    (ends : Ends .calm (path.task run captured e) w (some ()) w') :
    w'.HoldsFailure run.runId (mapInvokeError e).toText fun message =>
      some (mergedText (mergedText (captured.stderrText.getD "") (mapInvokeError e).toText) message) := by
  have isText := executeScript_stderr captured (mapInvokeError e)
  have notEmpty : mergedText (captured.stderrText.getD "") (mapInvokeError e).toText ≠ "" :=
    mergedText_ne (toText_ne_empty _)
  have merged : (fun message => ((executeScript (.error (mapInvokeError e)) captured).logs.ensureStderrMessage
      message).stderrText) = fun message => some (mergedText (mergedText (captured.stderrText.getD "")
        (mapInvokeError e).toText) message) := funext (ensureStderrMessage_again _ isText notEmpty)
  rw [← merged]
  cases path with
  | worker job timeoutMs durationMs =>
    replace ends : Ends .calm (finalizeFailedRun { run with durationMs := some durationMs } job .failed
      (mapInvokeError e).toText (some (executeScript (.error (mapInvokeError e)) captured).logs)) w (some ()) w' := ends
    have ids : ({ run with durationMs := some durationMs } : Run).runId = run.runId := rfl
    rw [← ids] at stored ⊢
    exact finalizeFailedRun_persists stored ends
  | event durationMs =>
    obtain ⟨r, w₁, gets, rest⟩ := ends
    obtain ⟨rfl, same⟩ := gets.getRun rfl
    rw [stored] at rest
    replace rest : Ends .calm (if run.status = .running then failRunning run (mapInvokeError e).toText
      (executeScript (.error (mapInvokeError e)) captured).logs else return ()) w₁ (some ()) w' := rest
    rw [if_pos running] at rest
    have stored₁ : w₁.run run.runId = some run := by rw [World.run_congr same, stored]
    unfold failRunning at rest
    split at rest
    · rename_i jobId _
      obtain ⟨found, w₂, reads, rest⟩ := rest
      obtain ⟨rfl, same₂⟩ := reads.getJob rfl
      have stored₂ : w₂.run run.runId = some run := by rw [World.run_congr same₂, stored₁]
      cases hasJob : w₁.job jobId with
      | none =>
        rw [hasJob] at rest
        exact failWithoutJob_persists isText notEmpty stored₂ rest
      | some job =>
        rw [hasJob] at rest
        exact finalizeFailedRun_persists stored₂ rest
    · exact failWithoutJob_persists isText notEmpty stored₁ rest

end Paths

/-- **Persisted failure rows depend on the error only through its sanitized form**, exactly where the texts of the two
errors, as the executor maps them, have one sanitized form and the captured output hides what is left between them. -/
theorem persisted_alike_iff {run : Run} {captured : CapturedLogs} {e e' : ChrononError} {w w₁ w₂ : World}
    (path path' : FailurePath) (stored : w.run run.runId = some run) (running : run.status = .running)
    (ends : Ends .calm (path.task run captured e) w (some ()) w₁)
    (ends' : Ends .calm (path'.task run captured e') w (some ()) w₂) :
    (w₁.run run.runId).map Run.persistedError = (w₂.run run.runId).map Run.persistedError ↔
      ∃ safe, safeMessage (mapInvokeError e).toText = some safe ∧ safeMessage (mapInvokeError e').toText = some safe ∧
        HidesDifference (captured.stderrText.getD "") (mapInvokeError e).toText (mapInvokeError e').toText safe := by
  obtain ⟨message, row, safe, isRow, persisted⟩ := path.persists stored running ends
  obtain ⟨message', row', safe', isRow', persisted'⟩ := path'.persists stored running ends'
  dsimp only at persisted persisted'
  rw [isRow, isRow', Option.map_some, Option.map_some, persisted, persisted', safe, safe']
  constructor
  · intro same
    simp only [Option.some.injEq, Prod.mk.injEq, Json.obj.injEq, List.cons.injEq, Json.str.injEq, and_true, true_and] at same
    obtain ⟨texts, rfl⟩ := same
    exact ⟨message, rfl, rfl, (hidesDifference_iff (toText_ne_empty _) (toText_ne_empty _)).mpr texts⟩
  · rintro ⟨_, ⟨⟩, ⟨⟩, hides⟩
    rw [(hidesDifference_iff (toText_ne_empty _) (toText_ne_empty _)).mp hides]

/-- The failure of `attemptWorld 0 1`, as it is played on one of the paths. -/
def failedAlone (path : FailurePath) (captured : CapturedLogs) (e : ChrononError) : World :=
  playedTo (fun _ => none) (path.task (runningAttempt 1) captured e) (attemptWorld 0 1) []

theorem ends_failedAlone (path : FailurePath) (captured : CapturedLogs) (e : ChrononError)
    (played : (playAlone (fun _ => none) (path.task (runningAttempt 1) captured e) (attemptWorld 0 1) []).any
      (fun out => out.1.isSome) = true) :
    Ends .calm (path.task (runningAttempt 1) captured e) (attemptWorld 0 1) (some ()) (failedAlone path captured e) := by
  obtain ⟨out, ends, finished⟩ := Ends.exists_of_play .calm le_refl (fun out => out.1.isSome) played
  obtain ⟨_, isUnit⟩ := Option.isSome_iff_exists.mp finished
  dsimp only at isUnit
  rw [isUnit] at ends
  exact ends

/-- The script has printed both errors. -/
def bothPrinted : CapturedLogs := ⟨none, some "internal error: token=aaaaaaaa internal error: token=bbbbbbbb"⟩

/-- Then the rows are the same, whichever path each error takes. -/
theorem persisted_alike_printed :
    ((failedAlone (.worker (retriedJob 0) 0 7) bothPrinted (.internal "token=aaaaaaaa")).run "r").map Run.persistedError =
      ((failedAlone (.event 7) bothPrinted (.internal "token=bbbbbbbb")).run "r").map Run.persistedError := by
  have stored : (attemptWorld 0 1).run (runningAttempt 1).runId = some (runningAttempt 1) := rfl
  have byWorker := ends_failedAlone (.worker (retriedJob 0) 0 7) bothPrinted (.internal "token=aaaaaaaa")
    (by decide +kernel)
  have byEvent := ends_failedAlone (.event 7) bothPrinted (.internal "token=bbbbbbbb") (by decide +kernel)
  refine (persisted_alike_iff _ _ stored rfl byWorker byEvent).mpr ?_
  refine ⟨"internal error: token=[redacted]", by decide +kernel, by decide +kernel, .inr (.inl ⟨?_, ?_, ?_⟩)⟩
  all_goals decide +kernel

/-- A handler that has printed nothing and fails with a secret in its error: the row keeps the secret. -/
theorem persisted_secret :
    ∃ w₁ w₂ : World,
      safeMessage (ChrononError.internal "token=aaaaaaaa").toText = some "internal error: token=[redacted]" ∧
      safeMessage (ChrononError.internal "token=bbbbbbbb").toText = some "internal error: token=[redacted]" ∧
      Ends .calm (FailurePath.task (.event 7) (runningAttempt 1) .default (.internal "token=aaaaaaaa")) (attemptWorld 0 1)
        (some ()) w₁ ∧
      Ends .calm (FailurePath.task (.event 7) (runningAttempt 1) .default (.internal "token=bbbbbbbb")) (attemptWorld 0 1)
        (some ()) w₂ ∧
      (w₁.run "r").bind Run.stderrText = some "internal error: token=aaaaaaaa\ninternal error: token=[redacted]" ∧
      (w₂.run "r").bind Run.stderrText = some "internal error: token=bbbbbbbb\ninternal error: token=[redacted]" ∧
      (w₁.run "r").map Run.persistedError ≠ (w₂.run "r").map Run.persistedError := by
  have first : ((failedAlone (.event 7) .default (.internal "token=aaaaaaaa")).run "r").bind Run.stderrText =
      some "internal error: token=aaaaaaaa\ninternal error: token=[redacted]" := by decide +kernel
  have second : ((failedAlone (.event 7) .default (.internal "token=bbbbbbbb")).run "r").bind Run.stderrText =
      some "internal error: token=bbbbbbbb\ninternal error: token=[redacted]" := by decide +kernel
  refine ⟨_, _, by decide +kernel, by decide +kernel, ends_failedAlone _ _ _ (by decide +kernel),
    ends_failedAlone _ _ _ (by decide +kernel), first, second, fun same => ?_⟩
  have texts := congrArg (fun error => error.bind Prod.fst) same
  simp only [Option.bind_map] at texts
  have alike := first.symm.trans (texts.trans second)
  exact absurd alike (by decide)

end Chronon
