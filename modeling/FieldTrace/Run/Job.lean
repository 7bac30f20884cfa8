/-! # Background jobs

A job hands its work to a worker of its own. Its calls may be made by several threads, and no lock
guards what they share: each call is a sequence of steps, every one of which reads or writes a single
field, and other calls may take steps in between. Cancellation is a request that the work may notice
or not; a call that finds the job cancelled hands out no value. -/

namespace FieldTrace

/-- Why a job cannot be started. -/
inductive JobError where
  | alreadyStarted
  | shutDown
  deriving DecidableEq, Repr

def JobError.message : JobError → String
  | alreadyStarted => "job already started"
  | shutDown => "cannot schedule new futures after shutdown"

/-- What the calls of a job share. Executors and submissions are known by their numbers. -/
structure Job (ε α : Type) where
  /-- Which executors still take work? -/
  executors : List Bool := []
  /-- The executor of the job. -/
  executor : Option Nat := none
  /-- How the work ended, for each time that it was submitted. -/
  submissions : List (Option (Except ε α)) := []
  /-- The submission that calls for the result wait for. -/
  future : Option Nat := none
  isCancelled : Bool := false
  deriving Repr

/-- What a call gives: the job is started or cannot be, the work ended with a value or failed, the
job was cancelled, or the time of the call was over. -/
inductive JobReply (ε α : Type) where
  | started
  | refused (error : JobError)
  | value (v : α)
  | failed (e : ε)
  | cancelled
  | timedOut
  deriving DecidableEq, Repr

/-- Where a call stands: before a step, with what it has read, or at its end. -/
inductive JobStage (ε α : Type) where
  /-- Before a call for the result looks whether the job was started. -/
  | look
  /-- Before a start tests whether the job was started. -/
  | test
  /-- Before a new executor is made the job's. -/
  | equip
  /-- Before the executor is read. -/
  | address
  /-- Before the work is submitted. -/
  | submit (executor : Nat)
  /-- Before the submission is made the one to wait for. -/
  | publish (submission : Nat)
  /-- Before the submission to wait for is read. -/
  | fetch
  | wait (submission : Nat)
  /-- After waiting, with the outcome unless the time was over: the submission is read again. -/
  | reread (outcome : Option (Except ε α))
  /-- Before it is tested whether the submission has ended. -/
  | probe (outcome : Option (Except ε α)) (submission : Nat)
  /-- Before it is tested whether there is an executor. -/
  | sight (outcome : Option (Except ε α))
  /-- Before the executor is read. -/
  | grasp (outcome : Option (Except ε α))
  /-- Before the executor is shut down. -/
  | shut (outcome : Option (Except ε α)) (executor : Nat)
  /-- Before it is tested whether the job was cancelled. -/
  | judge (v : α)
  | ended (reply : JobReply ε α)
  deriving Repr

namespace JobStage

variable {ε α : Type}

/-- How far a call is from its end. -/
def rank : JobStage ε α → Nat
  | look => 14
  | test => 13
  | equip => 12
  | address => 11
  | submit _ => 10
  | publish _ => 9
  | fetch => 8
  | wait _ => 7
  | reread _ => 6
  | probe _ _ => 5
  | sight _ => 4
  | grasp _ => 3
  | shut _ _ => 2
  | judge _ => 1
  | ended _ => 0

/-- Where a call goes when it has tidied up. -/
def leave : Option (Except ε α) → JobStage ε α
  | none => ended .timedOut
  | some (.error e) => ended (.failed e)
  | some (.ok v) => judge v

end JobStage

namespace Job

variable {ε α : Type} (j : Job ε α)

/-- How a submission of the work ended. -/
def outcome? (f : Nat) : Option (Except ε α) := j.submissions[f]?.join

/-- Has the work ended? -/
def isDone : Bool := j.future.any (fun f => (j.outcome? f).isSome)

/-- Request cancellation. -/
def cancel : Job ε α := { j with isCancelled := true }

/-- The work ends where it was submitted and has not ended. -/
def finish (f : Nat) (outcome : Except ε α) : Job ε α :=
  match j.submissions[f]? with
  | some none => { j with submissions := j.submissions.set f (some outcome) }
  | _ => j

/-- One step of a call, which may have to wait. A call that asks for the result starts the job
itself if it has to, and then goes on. -/
def step (asks : Bool) : JobStage ε α → Job ε α × JobStage ε α
  | .look => (j, if j.future.isSome then .fetch else .test)
  | .test => (j, if j.future.isSome then .ended (.refused .alreadyStarted) else .equip)
  | .equip =>
    ({ j with executors := j.executors ++ [true], executor := some j.executors.length }, .address)
  | .address =>
    match j.executor with
    | some e => (j, .submit e)
    | none => (j, .address)
  | .submit e =>
    if j.executors[e]? = some true then
      ({ j with submissions := j.submissions ++ [none] }, .publish j.submissions.length)
    else (j, .ended (.refused .shutDown))
  | .publish f => ({ j with future := some f }, if asks then .fetch else .ended .started)
  | .fetch =>
    match j.future with
    | some f => (j, .wait f)
    | none => (j, .fetch)
  | .wait f =>
    match j.outcome? f with
    | some outcome => (j, .reread (some outcome))
    | none => (j, .wait f)
  | .reread outcome =>
    match j.future with
    | some f => (j, .probe outcome f)
    | none => (j, .reread outcome)
  | .probe outcome f => (j, if (j.outcome? f).isSome then .sight outcome else .leave outcome)
  | .sight outcome => (j, if j.executor.isSome then .grasp outcome else .leave outcome)
  | .grasp outcome =>
    match j.executor with
    | some e => (j, .shut outcome e)
    | none => (j, .grasp outcome)
  | .shut outcome e => ({ j with executors := j.executors.set e false }, .leave outcome)
  | .judge v => (j, .ended (if j.isCancelled then .cancelled else .value v))
  | .ended r => (j, .ended r)

/-- The time of a call is over, which matters while it has to wait. -/
def expire : JobStage ε α → JobStage ε α
  | .wait f => if (j.outcome? f).isNone then .reread none else .wait f
  | stage => stage

/-- Let a call go on alone until it ends or has to wait. -/
def proceed (j : Job ε α) (asks : Bool) (stage : JobStage ε α) : Job ε α × JobStage ε α :=
  if (j.step asks stage).2.rank < stage.rank then
    proceed (j.step asks stage).1 asks (j.step asks stage).2
  else (j, stage)
termination_by stage.rank

/-- Start the job. -/
def start : Job ε α × JobStage ε α := j.proceed false .test

/-- Ask for the result. -/
def ask : Job ε α × JobStage ε α := j.proceed true .look

end Job

/-! ### Scripted work -/

/-- Work with a known course. -/
inductive Work (ε α : Type) where
  | returns (v : α)
  | fails (e : ε)
  | cancels (v : α)
  | waits (v : α)
  deriving Repr

/-- A job together with its work, used by one thread. Work that waits goes on once it is released,
and ends with `onCancel` if it then finds the job cancelled. -/
structure JobSession (ε α : Type) where
  work : Work ε α
  onCancel : ε
  job : Job ε α := {}
  released : Bool := false

namespace JobSession

variable {ε α : Type} (s : JobSession ε α)

/-- Let the worker go on as far as it can. -/
def advance : JobSession ε α :=
  match s.job.future.filter (fun f => (s.job.outcome? f).isNone) with
  | none => s
  | some f =>
    match s.work with
    | .returns v => { s with job := s.job.finish f (.ok v) }
    | .fails e => { s with job := s.job.finish f (.error e) }
    | .cancels v => { s with job := s.job.cancel.finish f (.ok v) }
    | .waits v =>
      if s.released then
        { s with job := s.job.finish f (if s.job.isCancelled then .error s.onCancel else .ok v) }
      else s

/-- Start the job. -/
def start : JobSession ε α × JobStage ε α :=
  let (job, stage) := s.job.start
  ({ s with job := job }.advance, stage)

/-- Request cancellation. -/
def cancel : JobSession ε α := { s with job := s.job.cancel }.advance

/-- Release waiting work. -/
def release : JobSession ε α := { s with released := true }.advance

/-- Ask for the result, and wait for it as long as the worker goes on. -/
def ask : JobSession ε α × JobStage ε α :=
  let (job, stage) := s.job.ask
  let s := { s with job := job }.advance
  let (job, stage) := s.job.proceed true stage
  let (job, stage) := job.proceed true (job.expire stage)
  ({ s with job := job }, stage)

end JobSession

end FieldTrace
