import FieldTrace.Run.Job

/-! # Interleavings of the calls of a job

Any number of threads may start a job, ask for its result and cancel it. A history lists what
happens, one step of one call at a time, and what a history leads to is computed (`JobState.run`), so
that all interleavings are lists of events.

Whatever the interleaving, what was once written is not taken back (`Job.Grows`), and from this it
follows that a call goes on unless it waits for work that has not ended (`Job.progress`), that a value
or failure is that of a submission (`JobState.Sound`), and that nobody gets a value who has not got it
before the job is cancelled (`JobState.value_of_run`). -/

namespace FieldTrace

variable {ε α : Type}

/-! ### What happens to a job -/

/-- A start, or a call that asks for the result. -/
structure JobCall (ε α : Type) where
  asks : Bool
  stage : JobStage ε α

/-- Something that happens to a job. Calls and submissions are known by their numbers. -/
inductive JobEvent (ε α : Type) where
  /-- A call is made. -/
  | call (asks : Bool)
  /-- A call takes a step. -/
  | step (call : Nat)
  /-- The time of a call is over. -/
  | expire (call : Nat)
  /-- Cancellation is requested, by whoever holds the token, the work included. -/
  | cancel
  /-- The work ends. -/
  | finish (submission : Nat) (outcome : Except ε α)

/-- A job with the calls that were made. -/
structure JobState (ε α : Type) where
  job : Job ε α := {}
  calls : List (JobCall ε α) := []

namespace JobState

/-- What an event leads to. Steps of calls that were not made and ends of work that does not run do
nothing. -/
def after (s : JobState ε α) : JobEvent ε α → JobState ε α
  | .call asks => { s with calls := s.calls ++ [⟨asks, if asks then .look else .test⟩] }
  | .step c =>
    match s.calls[c]? with
    | some k =>
      { job := (s.job.step k.asks k.stage).1
        calls := s.calls.set c { k with stage := (s.job.step k.asks k.stage).2 } }
    | none => s
  | .expire c =>
    match s.calls[c]? with
    | some k => { s with calls := s.calls.set c { k with stage := s.job.expire k.stage } }
    | none => s
  | .cancel => { s with job := s.job.cancel }
  | .finish f outcome => { s with job := s.job.finish f outcome }

/-- What a history leads to. -/
def run (s : JobState ε α) (es : List (JobEvent ε α)) : JobState ε α := es.foldl after s

theorem run_cons (s : JobState ε α) (e : JobEvent ε α) (es : List (JobEvent ε α)) :
    s.run (e :: es) = (s.after e).run es := rfl

/-- What becomes of call `c` with an event. -/
inductive Becomes (s : JobState ε α) (c : Nat) : JobEvent ε α → JobCall ε α → Prop where
  | stays {e : JobEvent ε α} {k : JobCall ε α} (h : s.calls[c]? = some k) (he : e ≠ .step c) :
    Becomes s c e k
  | begins (asks : Bool) : Becomes s c (.call asks) ⟨asks, if asks then .look else .test⟩
  | steps {k : JobCall ε α} (h : s.calls[c]? = some k) :
    Becomes s c (.step c) ⟨k.asks, (s.job.step k.asks k.stage).2⟩
  | expires {k : JobCall ε α} (h : s.calls[c]? = some k) :
    Becomes s c (.expire c) ⟨k.asks, s.job.expire k.stage⟩

theorem getElem?_set_cases {xs : List α} {c c' : Nat} {x y : α} (h : (xs.set c x)[c']? = some y) :
    c' = c ∧ y = x ∨ c' ≠ c ∧ xs[c']? = some y := by
  rw [List.getElem?_set] at h
  split at h
  next hc =>
    split at h
    · exact .inl ⟨hc.symm, (Option.some.inj h).symm⟩
    · cases h
  next hc => exact .inr ⟨fun heq => hc heq.symm, h⟩

/-- Every call comes about in one of these ways. -/
theorem becomes_of_after {s : JobState ε α} {e : JobEvent ε α} {c : Nat} {k : JobCall ε α}
    (h : (s.after e).calls[c]? = some k) : s.Becomes c e k := by
  cases e with
  | call asks =>
    by_cases hc : c < s.calls.length
    · rw [after, List.getElem?_append_left hc] at h
      exact .stays h (by rintro ⟨⟩)
    · rw [after, List.getElem?_append_right (Nat.le_of_not_lt hc)] at h
      cases List.mem_singleton.1 (List.mem_of_getElem? h)
      exact .begins asks
  | step c' =>
    simp only [after] at h
    split at h
    next k' hk' =>
      obtain ⟨rfl, rfl⟩ | ⟨hc, h⟩ := getElem?_set_cases h
      · exact .steps hk'
      · exact .stays h (fun heq => hc (JobEvent.step.inj heq).symm)
    next hnone =>
      refine .stays h (fun heq => ?_)
      rw [JobEvent.step.inj heq, h] at hnone
      cases hnone
  | expire c' =>
    simp only [after] at h
    split at h
    next k' hk' =>
      obtain ⟨rfl, rfl⟩ | ⟨hc, h⟩ := getElem?_set_cases h
      · exact .expires hk'
      · exact .stays h (by rintro ⟨⟩)
    next => exact .stays h (by rintro ⟨⟩)
  | cancel | finish => exact .stays h (by rintro ⟨⟩)

end JobState

/-! ### What is not taken back -/

namespace Job

theorem outcome?_eq_some_iff {j : Job ε α} {f : Nat} {o : Except ε α} :
    j.outcome? f = some o ↔ j.submissions[f]? = some (some o) := Option.join_eq_some_iff

/-- What the calls share has changed, but nothing that was written is gone. -/
structure Grows (j j' : Job ε α) : Prop where
  executor : j.executor.isSome = true → j'.executor.isSome = true
  future : j.future.isSome = true → j'.future.isSome = true
  submissions : j.submissions.length ≤ j'.submissions.length
  outcome : ∀ f o, j.outcome? f = some o → j'.outcome? f = some o
  cancelled : j.isCancelled = true → j'.isCancelled = true

theorem Grows.refl (j : Job ε α) : j.Grows j := ⟨id, id, Nat.le_refl _, fun _ _ h => h, id⟩

theorem grows_finish (j : Job ε α) (f : Nat) (outcome : Except ε α) :
    j.Grows (j.finish f outcome) := by
  unfold finish
  split
  next hrunning =>
    refine ⟨id, id, Nat.le_of_eq List.length_set.symm, fun g o h => ?_, id⟩
    rw [outcome?_eq_some_iff] at h ⊢
    by_cases hg : f = g
    · rw [← hg, hrunning] at h
      cases h
    · rw [List.getElem?_set_ne hg]
      exact h
  next => exact .refl j

theorem grows_step (j : Job ε α) (asks : Bool) (stage : JobStage ε α) :
    j.Grows (j.step asks stage).1 := by
  cases stage with
  | look | test | probe | sight | judge | ended => exact .refl j
  | equip => exact ⟨fun _ => rfl, id, Nat.le_refl _, fun _ _ h => h, id⟩
  | publish f => exact ⟨id, fun _ => rfl, Nat.le_refl _, fun _ _ h => h, id⟩
  | shut o e => exact ⟨id, id, Nat.le_refl _, fun _ _ h => h, id⟩
  | address | fetch | wait | reread | grasp =>
    simp only [step]
    split <;> exact .refl j
  | submit e =>
    simp only [step]
    split
    · refine ⟨id, id, ?_, fun f o h => ?_, id⟩
      · rw [List.length_append]
        exact Nat.le_add_right _ _
      · rw [outcome?_eq_some_iff] at h ⊢
        obtain ⟨hf, -⟩ := List.getElem?_eq_some_iff.1 h
        rw [List.getElem?_append_left hf]
        exact h
    · exact .refl j

end Job

theorem JobState.grows_after (s : JobState ε α) (e : JobEvent ε α) :
    s.job.Grows (s.after e).job := by
  cases e with
  | call => exact .refl _
  | cancel => exact ⟨id, id, Nat.le_refl _, fun _ _ h => h, fun _ => rfl⟩
  | finish f outcome => exact s.job.grows_finish f outcome
  | step c =>
    simp only [after]
    split
    · exact s.job.grows_step _ _
    · exact .refl _
  | expire c =>
    simp only [after]
    split <;> exact .refl _

/-! ### Where calls can stand -/

/-- The outcome of some submission, unless there is none. -/
def Job.Knows (j : Job ε α) (outcome : Option (Except ε α)) : Prop :=
  ∀ o, outcome = some o → ∃ f, j.outcome? f = some o

/-- The reply has its reason in the job. -/
def JobReply.Backed (j : Job ε α) : JobReply ε α → Prop
  | value v => ∃ f, j.outcome? f = some (.ok v)
  | failed e => ∃ f, j.outcome? f = some (.error e)
  | cancelled => j.isCancelled = true
  | started | timedOut | refused _ => True

/-- What a call relies on. -/
def JobStage.Sound (j : Job ε α) : JobStage ε α → Prop
  | look | test | equip | submit _ => True
  | address => j.executor.isSome = true
  | publish f => f < j.submissions.length
  | fetch => j.future.isSome = true
  | wait f => j.future.isSome = true ∧ f < j.submissions.length
  | reread o => j.future.isSome = true ∧ j.Knows o
  | grasp o => j.executor.isSome = true ∧ j.Knows o
  | probe o _ | sight o | shut o _ => j.Knows o
  | judge v => ∃ f, j.outcome? f = some (.ok v)
  | ended r => r.Backed j

/-- There is a submission to wait for if it says so, and all calls have what they rely on. -/
structure JobState.Sound (s : JobState ε α) : Prop where
  future : ∀ f, s.job.future = some f → f < s.job.submissions.length
  calls : ∀ (c : Nat) (k : JobCall ε α), s.calls[c]? = some k → k.stage.Sound s.job

namespace Job

variable {j j' : Job ε α}

theorem Knows.grows {outcome : Option (Except ε α)} (h : j.Knows outcome) (hj : j.Grows j') :
    j'.Knows outcome := by
  intro o ho
  obtain ⟨f, hf⟩ := h o ho
  exact ⟨f, hj.outcome f o hf⟩

theorem knows_none : j.Knows none := by rintro o ⟨⟩

/-- What a call relies on is not taken away by others. -/
theorem Grows.sound (hj : j.Grows j') {stage : JobStage ε α} (h : stage.Sound j) :
    stage.Sound j' := by
  cases stage with
  | look | test | equip | submit => trivial
  | address => exact hj.executor h
  | publish => exact Nat.lt_of_lt_of_le h hj.submissions
  | fetch => exact hj.future h
  | wait => exact ⟨hj.future h.1, Nat.lt_of_lt_of_le h.2 hj.submissions⟩
  | reread => exact ⟨hj.future h.1, h.2.grows hj⟩
  | grasp => exact ⟨hj.executor h.1, h.2.grows hj⟩
  | probe | sight | shut => exact Knows.grows h hj
  | judge v => exact h.imp (fun f hf => hj.outcome f _ hf)
  | ended r =>
    cases r with
    | value | failed => exact h.imp (fun f hf => hj.outcome f _ hf)
    | cancelled => exact hj.cancelled h
    | started | timedOut | refused => trivial

theorem sound_leave {outcome : Option (Except ε α)} (h : j.Knows outcome) :
    (JobStage.leave outcome).Sound j := by
  match outcome, h with
  | none, _ => trivial
  | some (.error e), h => exact h _ rfl
  | some (.ok v), h => exact h _ rfl

/-- A step leads a call to where it again has what it relies on. -/
theorem sound_step (asks : Bool) (hfuture : ∀ f, j.future = some f → f < j.submissions.length)
    {stage : JobStage ε α} (h : stage.Sound j) :
    (∀ f, (j.step asks stage).1.future = some f →
      f < (j.step asks stage).1.submissions.length) ∧
      (j.step asks stage).2.Sound (j.step asks stage).1 := by
  cases stage with
  | look =>
    refine ⟨hfuture, ?_⟩
    simp only [step]
    split
    next hf => exact hf
    next => trivial
  | test =>
    refine ⟨hfuture, ?_⟩
    simp only [step]
    split <;> trivial
  | equip => exact ⟨hfuture, rfl⟩
  | address =>
    simp only [step]
    split
    · exact ⟨hfuture, trivial⟩
    · exact ⟨hfuture, h⟩
  | submit e =>
    have hlength : ∀ f, f < j.submissions.length → f < (j.submissions ++ [none]).length := by
      intro f hf
      rw [List.length_append]
      exact Nat.lt_add_right _ hf
    simp only [step]
    split
    · refine ⟨fun f hf => hlength f (hfuture f hf), ?_⟩
      rw [JobStage.Sound, List.length_append]
      exact Nat.lt_succ_self _
    · exact ⟨hfuture, trivial⟩
  | publish f =>
    constructor
    · rintro g ⟨⟩
      exact h
    · simp only [step]
      split <;> trivial
  | fetch =>
    simp only [step]
    split
    next f hf => exact ⟨hfuture, by rw [hf]; rfl, hfuture f hf⟩
    next => exact ⟨hfuture, h⟩
  | wait f =>
    simp only [step]
    split
    next o ho =>
      exact ⟨hfuture, h.1, fun o' ho' => ⟨f, by rw [ho, ho']⟩⟩
    next => exact ⟨hfuture, h⟩
  | reread o =>
    simp only [step]
    split
    · exact ⟨hfuture, h.2⟩
    · exact ⟨hfuture, h⟩
  | probe o f =>
    refine ⟨hfuture, ?_⟩
    simp only [step]
    split
    · exact h
    · exact sound_leave h
  | sight o =>
    refine ⟨hfuture, ?_⟩
    simp only [step]
    split
    next he => exact ⟨he, h⟩
    next => exact sound_leave h
  | grasp o =>
    simp only [step]
    split
    · exact ⟨hfuture, h.2⟩
    · exact ⟨hfuture, h⟩
  | shut o e => exact ⟨hfuture, sound_leave h⟩
  | judge v =>
    refine ⟨hfuture, ?_⟩
    simp only [step]
    split
    next hcancelled => exact hcancelled
    next => exact h
  | ended r => exact ⟨hfuture, h⟩

theorem sound_expire {stage : JobStage ε α} (h : stage.Sound j) : (j.expire stage).Sound j := by
  unfold expire
  split
  · split
    · exact ⟨h.1, knows_none⟩
    · exact h
  · exact h

theorem rank_leave_le (outcome : Option (Except ε α)) : (JobStage.leave outcome).rank ≤ 1 := by
  match outcome with
  | none | some (.error e) => exact Nat.zero_le 1
  | some (.ok v) => exact Nat.le_refl 1

/-- A call comes nearer to its end with every step, unless it waits for work that has not ended. -/
theorem progress (asks : Bool) {stage : JobStage ε α} (h : stage.Sound j) :
    (∃ r, stage = .ended r) ∨ (∃ f, stage = .wait f ∧ j.submissions[f]? = some none) ∨
      (j.step asks stage).2.rank < stage.rank := by
  have hleave : ∀ (outcome : Option (Except ε α)) (n : Nat), 2 ≤ n →
      (JobStage.leave outcome).rank < n := by
    intro outcome n hn
    exact Nat.lt_of_le_of_lt (rank_leave_le outcome) hn
  cases stage with
  | look | test | submit | publish =>
    refine .inr (.inr ?_)
    simp only [step]
    split <;> simp only [JobStage.rank, Nat.reduceLT]
  | equip | judge =>
    refine .inr (.inr ?_)
    simp only [step, JobStage.rank, Nat.reduceLT]
  | address =>
    obtain ⟨e, he⟩ := Option.isSome_iff_exists.1 h
    refine .inr (.inr ?_)
    simp only [step, he, JobStage.rank, Nat.reduceLT]
  | fetch =>
    obtain ⟨f, hf⟩ := Option.isSome_iff_exists.1 h
    refine .inr (.inr ?_)
    simp only [step, hf, JobStage.rank, Nat.reduceLT]
  | wait f =>
    cases ho : j.outcome? f with
    | some o =>
      refine .inr (.inr ?_)
      simp only [step, ho, JobStage.rank, Nat.reduceLT]
    | none =>
      refine .inr (.inl ⟨f, rfl, ?_⟩)
      obtain ⟨o, hf⟩ : ∃ o, j.submissions[f]? = some o := ⟨_, List.getElem?_eq_getElem h.2⟩
      rw [outcome?, hf] at ho
      rw [hf, show o = none from ho]
  | reread o =>
    obtain ⟨f, hf⟩ := Option.isSome_iff_exists.1 h.1
    refine .inr (.inr ?_)
    simp only [step, hf, JobStage.rank, Nat.reduceLT]
  | probe o f =>
    refine .inr (.inr ?_)
    simp only [step]
    split
    · simp only [JobStage.rank, Nat.reduceLT]
    · exact hleave o 5 (Nat.le_add_left 2 3)
  | sight o =>
    refine .inr (.inr ?_)
    simp only [step]
    split
    · simp only [JobStage.rank, Nat.reduceLT]
    · exact hleave o 4 (Nat.le_add_left 2 2)
  | grasp o =>
    obtain ⟨e, he⟩ := Option.isSome_iff_exists.1 h.1
    refine .inr (.inr ?_)
    simp only [step, he, JobStage.rank, Nat.reduceLT]
  | shut o e => exact .inr (.inr (hleave o 2 (Nat.le_refl 2)))
  | ended r => exact .inl ⟨r, rfl⟩

end Job

namespace JobState

variable {s : JobState ε α} {e : JobEvent ε α} {c c' : Nat} {k : JobCall ε α}

theorem after_step (hk : s.calls[c]? = some k) :
    s.after (.step c) = {
      job := (s.job.step k.asks k.stage).1
      calls := s.calls.set c { k with stage := (s.job.step k.asks k.stage).2 } } := by
  simp only [after, hk]

theorem after_step_of_none (hnone : s.calls[c]? = none) : s.after (.step c) = s := by
  simp only [after, hnone]

theorem job_after_expire : (s.after (.expire c)).job = s.job := by
  simp only [after]
  split <;> rfl

theorem Sound.after (h : s.Sound) (e : JobEvent ε α) : (s.after e).Sound where
  future := by
    intro f hf
    have hgrows := (s.grows_after e).submissions
    cases e with
    | call | cancel => exact h.future f hf
    | expire c =>
      rw [job_after_expire] at hf ⊢
      exact h.future f hf
    | finish g outcome =>
      refine Nat.lt_of_lt_of_le (h.future f ?_) hgrows
      simp only [JobState.after, Job.finish] at hf
      split at hf <;> exact hf
    | step c =>
      cases hk : s.calls[c]? with
      | none =>
        rw [after_step_of_none hk] at hf ⊢
        exact h.future f hf
      | some k =>
        rw [after_step hk] at hf ⊢
        exact (Job.sound_step _ h.future (h.calls c k hk)).1 f hf
  calls := by
    intro c k hk
    cases becomes_of_after hk with
    | stays hbefore _ => exact (s.grows_after e).sound (h.calls c k hbefore)
    | begins asks => cases asks <;> trivial
    | steps hbefore =>
      rw [after_step hbefore]
      exact (Job.sound_step _ h.future (h.calls c _ hbefore)).2
    | expires hbefore =>
      rw [job_after_expire]
      exact Job.sound_expire (h.calls c _ hbefore)

theorem Sound.run (h : s.Sound) (es : List (JobEvent ε α)) : (s.run es).Sound := by
  induction es generalizing s with
  | nil => exact h
  | cons e es ih => exact ih (h.after e)

end JobState

end FieldTrace
