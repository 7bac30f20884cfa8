import FieldTrace.Proofs.JobInterleavings

/-! # Jobs whose calls take their turns

Two calls that both find the job not started both submit the work (`unguarded_calls_race`). This
cannot happen if no call looks whether the job was started while another one is starting it
(`JobState.takesTurns`), as when each call goes on alone until it ends or has to wait
(`JobState.exists_steps_alone`). Then a history is in one of three phases (`JobState.Orderly`):
nothing is submitted, the one submission is not yet published, or it is. -/

namespace FieldTrace

variable {ε α : Type}

/-! ### Where calls stand in a phase -/

namespace JobCall

/-- The call has not yet looked whether the job was started. -/
def isEarly (k : JobCall ε α) : Bool :=
  match k.stage with
  | .look => k.asks
  | .test => !k.asks
  | _ => false

/-- Does the next step look whether the job was started? -/
def looks (k : JobCall ε α) : Bool :=
  match k.stage with
  | .look | .test => true
  | _ => false

/-- The call has found the job not started, and has not published a submission. -/
def isStarting (k : JobCall ε α) : Bool :=
  match k.stage with
  | .test => k.asks
  | .equip | .address | .submit _ | .publish _ => true
  | _ => false

/-- The call is about to submit the work, and the executor will take it. -/
def Prepares (j : Job ε α) (k : JobCall ε α) : Prop :=
  match k.stage with
  | .test => k.asks = true
  | .equip => True
  | .address => ∃ e, j.executor = some e ∧ j.executors[e]? = some true
  | .submit e => j.executors[e]? = some true
  | _ => False

/-- The call has found the job started, or has started it. -/
def Settles (k : JobCall ε α) : Prop :=
  match k.stage with
  | .look | .test | .equip | .address | .submit _ | .publish _ => False
  | .ended .started => k.asks = false
  | .ended (.refused e) => k.asks = false ∧ e = .alreadyStarted
  | _ => k.asks = true

variable {k : JobCall ε α} {j : Job ε α}

theorem looks_of_isEarly (h : k.isEarly = true) : k.looks = true := by
  obtain ⟨asks, stage⟩ := k
  cases stage with
  | look | test => rfl
  | _ => cases h

theorem isStarting_of_prepares (h : k.Prepares j) : k.isStarting = true := by
  obtain ⟨asks, stage⟩ := k
  cases stage with
  | test => exact h
  | equip | address | submit => rfl
  | _ => cases h

theorem Prepares.of_job {j' : Job ε α} (h : k.Prepares j) (hexecutor : j'.executor = j.executor)
    (hexecutors : j'.executors = j.executors) : k.Prepares j' := by
  unfold Prepares at h ⊢
  rw [hexecutor, hexecutors]
  exact h

/-- Time is no matter to a call that does not wait yet. -/
theorem expire_of_isEarly_or_isStarting (h : k.isEarly = true ∨ k.isStarting = true) :
    j.expire k.stage = k.stage := by
  obtain ⟨asks, stage⟩ := k
  cases stage with
  | wait => obtain h | h := h <;> cases h
  | _ => rfl

theorem settles_expire (h : k.Settles) : Settles ⟨k.asks, j.expire k.stage⟩ := by
  obtain ⟨asks, stage⟩ := k
  cases stage with
  | wait f =>
    simp only [Job.expire]
    split <;> exact h
  | _ => exact h

theorem settles_leave (outcome : Option (Except ε α)) :
    Settles ⟨true, JobStage.leave outcome⟩ := by
  match outcome with
  | none | some (.error e) | some (.ok v) => rfl

/-- Once there is a submission to wait for, no call changes it or submits the work again. -/
theorem settles_step (hfuture : j.future.isSome = true) (h : k.isEarly = true ∨ k.Settles) :
    (j.step k.asks k.stage).1.future = j.future ∧
      (j.step k.asks k.stage).1.submissions = j.submissions ∧
      Settles ⟨k.asks, (j.step k.asks k.stage).2⟩ := by
  obtain ⟨asks, stage⟩ := k
  cases stage with
  | look =>
    obtain h | h := h
    · exact ⟨rfl, rfl, by simp only [Job.step, hfuture]; exact h⟩
    · cases h
  | test =>
    obtain h | h := h
    · refine ⟨rfl, rfl, ?_⟩
      simp only [Job.step, hfuture]
      cases asks with
      | false => exact ⟨rfl, rfl⟩
      | true => cases h
    · cases h
  | equip | address | submit | publish => obtain h | h := h <;> cases h
  | fetch | wait | reread | grasp =>
    obtain h | h := h
    · cases h
    · simp only [Job.step]
      split <;> exact ⟨rfl, rfl, h⟩
  | probe o f | sight o =>
    obtain h | h := h
    · cases h
    · refine ⟨rfl, rfl, ?_⟩
      obtain rfl : asks = true := h
      simp only [Job.step]
      split
      · rfl
      · exact settles_leave o
  | shut o e =>
    obtain h | h := h
    · cases h
    · obtain rfl : asks = true := h
      exact ⟨rfl, rfl, settles_leave o⟩
  | judge v =>
    obtain h | h := h
    · cases h
    · refine ⟨rfl, rfl, ?_⟩
      simp only [Job.step]
      split <;> exact h
  | ended r =>
    obtain h | h := h
    · cases h
    · exact ⟨rfl, rfl, h⟩

end JobCall

/-! ### Taking turns -/

namespace JobState

/-- No call looks whether the job was started while another one is starting it. -/
def isClear (s : JobState ε α) : JobEvent ε α → Bool
  | .step c =>
    !(s.calls[c]?.any JobCall.looks) || (s.calls.eraseIdx c).all (fun k => !k.isStarting)
  | _ => true

/-- Every call of a history that looks whether the job was started has its turn. -/
def takesTurns (s : JobState ε α) : List (JobEvent ε α) → Bool
  | [] => true
  | e :: es => s.isClear e && (s.after e).takesTurns es

/-- Nothing is submitted; at most call `c` has found this out. -/
structure Idle (s : JobState ε α) (c : Nat) : Prop where
  future : s.job.future = none
  submissions : s.job.submissions = []
  executors : ∀ b ∈ s.job.executors, b = true
  others : ∀ (c' : Nat) (k : JobCall ε α), c' ≠ c → s.calls[c']? = some k → k.isEarly = true
  one : ∀ k, s.calls[c]? = some k → k.isEarly = true ∨ k.Prepares s.job

/-- Call `c` has submitted the work, and nobody knows. -/
structure Unpublished (s : JobState ε α) (c : Nat) : Prop where
  future : s.job.future = none
  submissions : s.job.submissions.length = 1
  others : ∀ (c' : Nat) (k : JobCall ε α), c' ≠ c → s.calls[c']? = some k → k.isEarly = true
  one : ∃ asks, s.calls[c]? = some ⟨asks, .publish 0⟩

/-- The one submission is the one to wait for. -/
structure Published (s : JobState ε α) : Prop where
  future : s.job.future = some 0
  submissions : s.job.submissions.length = 1
  calls : ∀ (c : Nat) (k : JobCall ε α), s.calls[c]? = some k → k.isEarly = true ∨ k.Settles

/-- The phases of a history in which all calls take their turns. -/
def Orderly (s : JobState ε α) : Prop :=
  (∃ c, s.Idle c) ∨ (∃ c, s.Unpublished c) ∨ s.Published

variable {s : JobState ε α} {e : JobEvent ε α} {c c' : Nat} {k k' : JobCall ε α}

theorem isStarting_of_isClear (hclear : s.isClear (.step c) = true) (hk : s.calls[c]? = some k)
    (hlooks : k.looks = true) (hk' : s.calls[c']? = some k') (hne : c' ≠ c) :
    k'.isStarting = false := by
  have hmem : k' ∈ s.calls.eraseIdx c := List.mem_eraseIdx_iff_getElem?.2 ⟨c', hne, hk'⟩
  simp only [isClear, hk, Option.any_some, hlooks, Bool.not_true, Bool.false_or,
    List.all_eq_true, Bool.not_eq_true'] at hclear
  exact hclear k' hmem

theorem calls_step_self (hk : s.calls[c]? = some k) :
    (s.after (.step c)).calls[c]? = some ⟨k.asks, (s.job.step k.asks k.stage).2⟩ := by
  obtain ⟨hc, -⟩ := List.getElem?_eq_some_iff.1 hk
  rw [after_step hk]
  exact List.getElem?_set_self hc

theorem calls_step_other (hne : c' ≠ c) : (s.after (.step c)).calls[c']? = s.calls[c']? := by
  simp only [after]
  split
  · exact List.getElem?_set_ne hne.symm
  · rfl

/-- Calls stay where they are while others take steps. -/
theorem calls_after_of_ne_step (hk : s.calls[c]? = some k) (he : e ≠ .step c)
    (hexpire : s.job.expire k.stage = k.stage) : (s.after e).calls[c]? = some k := by
  obtain ⟨hc, -⟩ := List.getElem?_eq_some_iff.1 hk
  cases e with
  | call asks => exact (List.getElem?_append_left hc).trans hk
  | step c' =>
    rw [calls_step_other (fun h => he (by rw [h]))]
    exact hk
  | expire c' =>
    by_cases heq : c' = c
    · subst heq
      simp only [after, hk, hexpire]
      exact List.getElem?_set_self hc
    · simp only [after]
      split
      · rw [List.getElem?_set_ne heq]
        exact hk
      · exact hk
  | cancel | finish => exact hk

/-- Early calls stay early while they take no step, and new calls are early. -/
theorem isEarly_of_after (hbefore : ∀ k, s.calls[c]? = some k → k.isEarly = true)
    (hstep : e ≠ .step c) (hk : (s.after e).calls[c]? = some k) : k.isEarly = true := by
  cases becomes_of_after hk with
  | stays h _ => exact hbefore k h
  | begins asks => cases asks <;> rfl
  | steps h => exact absurd rfl hstep
  | expires h =>
    have hearly := hbefore _ h
    rw [JobCall.expire_of_isEarly_or_isStarting (.inl hearly)]
    exact hearly

/-- Only steps of calls change who may submit, and what is to be waited for. -/
theorem job_after_of_ne_step (he : ∀ c, e ≠ .step c) :
    (s.after e).job.future = s.job.future ∧ (s.after e).job.executor = s.job.executor ∧
      (s.after e).job.executors = s.job.executors ∧
      (s.after e).job.submissions.length = s.job.submissions.length := by
  cases e with
  | step c => exact absurd rfl (he c)
  | call | cancel => exact ⟨rfl, rfl, rfl, rfl⟩
  | expire c =>
    rw [job_after_expire]
    exact ⟨rfl, rfl, rfl, rfl⟩
  | finish f outcome =>
    simp only [after, Job.finish]
    split
    · exact ⟨rfl, rfl, rfl, List.length_set⟩
    · exact ⟨rfl, rfl, rfl, rfl⟩

/-! ### Nothing is submitted -/

/-- A call that takes a step while nothing is submitted is the one that may prepare a submission. -/
theorem Idle.of_isClear (h : s.Idle c') (hclear : s.isClear (.step c) = true)
    (hk : s.calls[c]? = some k) : s.Idle c := by
  by_cases hne : c = c'
  · exact hne ▸ h
  · have hearly := h.others c k hne hk
    refine { h with others := ?_, one := ?_ }
    · intro d kd hd hkd
      by_cases hd' : d = c'
      · subst hd'
        refine (h.one kd hkd).resolve_right fun hprepares => ?_
        have hquiet := isStarting_of_isClear hclear hk (JobCall.looks_of_isEarly hearly) hkd hd
        rw [JobCall.isStarting_of_prepares hprepares] at hquiet
        cases hquiet
      · exact h.others d kd hd' hkd
    · intro k' hk'
      rw [hk] at hk'
      cases hk'
      exact .inl hearly

theorem Idle.after_of_ne_step (h : s.Idle c) (he : ∀ c, e ≠ .step c) : (s.after e).Idle c := by
  obtain ⟨hfuture, hexecutor, hexecutors, hsubmissions⟩ := job_after_of_ne_step (s := s) he
  refine ⟨hfuture.trans h.future, ?_, ?_, ?_, ?_⟩
  · rw [h.submissions] at hsubmissions
    exact List.length_eq_zero_iff.1 hsubmissions
  · rw [hexecutors]
    exact h.executors
  · intro c' k hne hk
    exact isEarly_of_after (fun k => h.others c' k hne) (he c') hk
  · intro k hk
    cases becomes_of_after hk with
    | stays hbefore _ => exact (h.one k hbefore).imp_right (·.of_job hexecutor hexecutors)
    | begins asks => cases asks <;> exact .inl rfl
    | steps => exact absurd rfl (he c)
    | expires hbefore =>
      have hone := h.one _ hbefore
      rw [JobCall.expire_of_isEarly_or_isStarting (hone.imp_right JobCall.isStarting_of_prepares)]
      exact hone.imp_right (·.of_job hexecutor hexecutors)

theorem isEarly_step_of_ne
    (h : ∀ (c' : Nat) (k : JobCall ε α), c' ≠ c → s.calls[c']? = some k → k.isEarly = true)
    (c' : Nat) (k : JobCall ε α) (hne : c' ≠ c) (hk : (s.after (.step c)).calls[c']? = some k) :
    k.isEarly = true := by
  rw [calls_step_other hne] at hk
  exact h c' k hne hk

/-- A step after which nothing is submitted yet. -/
theorem Idle.step_prepares (h : s.Idle c) (hk : s.calls[c]? = some k) {j : Job ε α}
    {stage : JobStage ε α} (hstep : s.job.step k.asks k.stage = (j, stage))
    (hfuture : j.future = none) (hsubmissions : j.submissions = [])
    (hexecutors : ∀ b ∈ j.executors, b = true) (hprepares : JobCall.Prepares j ⟨k.asks, stage⟩) :
    (s.after (.step c)).Idle c := by
  have hjob : (s.after (.step c)).job = j := by rw [after_step hk, hstep]
  refine ⟨by rw [hjob, hfuture], by rw [hjob, hsubmissions], by rw [hjob]; exact hexecutors,
    isEarly_step_of_ne h.others, ?_⟩
  intro k' hk'
  rw [calls_step_self hk, hstep] at hk'
  cases hk'
  rw [hjob]
  exact .inr hprepares

/-- The call that may prepare a submission goes on towards it, or submits the work. -/
theorem Idle.step (h : s.Idle c) (hk : s.calls[c]? = some k) :
    (s.after (.step c)).Idle c ∨ (s.after (.step c)).Unpublished c := by
  have hone := h.one k hk
  obtain ⟨asks, stage⟩ := k
  cases stage with
  | look =>
    have hstep : s.job.step asks .look = (s.job, .test) := by
      simp only [Job.step, h.future, Option.isSome_none, Bool.false_eq_true, if_false]
    obtain hearly | hprepares := hone
    · exact .inl (h.step_prepares hk hstep h.future h.submissions h.executors hearly)
    · cases hprepares
  | test =>
    have hstep : s.job.step asks .test = (s.job, .equip) := by
      simp only [Job.step, h.future, Option.isSome_none, Bool.false_eq_true, if_false]
    exact .inl (h.step_prepares hk hstep h.future h.submissions h.executors trivial)
  | equip =>
    refine .inl (h.step_prepares hk rfl h.future h.submissions ?_ ⟨_, rfl, ?_⟩)
    · intro b hb
      obtain hb | hb := List.mem_append.1 hb
      · exact h.executors b hb
      · exact List.mem_singleton.1 hb
    · exact List.getElem?_concat_length
  | address =>
    obtain hearly | ⟨e, he, hopen⟩ := hone
    · cases hearly
    · have hstep : s.job.step asks .address = (s.job, .submit e) := by simp only [Job.step, he]
      exact .inl (h.step_prepares hk hstep h.future h.submissions h.executors hopen)
  | submit e =>
    obtain hearly | hopen := hone
    · cases hearly
    · have hstep : s.job.step asks (.submit e) =
          ({ s.job with submissions := [none] }, .publish 0) := by
        simp only [Job.step, h.submissions, List.nil_append, List.length_nil]
        exact if_pos hopen
      refine .inr ⟨?_, ?_, isEarly_step_of_ne h.others, asks, ?_⟩
      · rw [after_step hk, hstep]
        exact h.future
      · rw [after_step hk, hstep]
        rfl
      · rw [calls_step_self hk, hstep]
  | _ => obtain hearly | hprepares := hone <;> contradiction

/-! ### The work is submitted -/

/-- While a submission is not published, all others wait for their turn. -/
theorem Unpublished.after_of_ne_step (h : s.Unpublished c) (hclear : s.isClear e = true)
    (he : e ≠ .step c) : (s.after e).Unpublished c := by
  obtain ⟨asks, hone⟩ := h.one
  have hsteps : (∃ c', e = .step c' ∧ s.calls[c']? = none) ∨ ∀ c', e ≠ .step c' := by
    cases e with
    | step c' =>
      refine .inl ⟨c', rfl, ?_⟩
      cases hk : s.calls[c']? with
      | none => rfl
      | some k =>
        have hne : c' ≠ c := fun heq => he (by rw [heq])
        have hlooks := JobCall.looks_of_isEarly (h.others c' k hne hk)
        have hquiet := isStarting_of_isClear hclear hk hlooks hone hne.symm
        cases hquiet
    | _ => exact .inr (by rintro c' ⟨⟩)
  obtain ⟨c', rfl, hnone⟩ | hsteps := hsteps
  · rw [after_step_of_none hnone]
    exact h
  · obtain ⟨hfuture, -, -, hsubmissions⟩ := job_after_of_ne_step (s := s) hsteps
    refine ⟨hfuture.trans h.future, hsubmissions.trans h.submissions, ?_, asks, ?_⟩
    · intro c' k hne hk
      exact isEarly_of_after (fun k => h.others c' k hne) (hsteps c') hk
    · exact calls_after_of_ne_step hone he rfl

theorem Unpublished.step (h : s.Unpublished c) : (s.after (.step c)).Published := by
  obtain ⟨asks, hone⟩ := h.one
  refine ⟨?_, ?_, ?_⟩
  · rw [after_step hone]
    rfl
  · rw [after_step hone]
    exact h.submissions
  · intro c' k hk
    by_cases hne : c' = c
    · subst hne
      rw [calls_step_self hone] at hk
      cases hk
      cases asks <;> exact .inr rfl
    · exact .inl (isEarly_step_of_ne h.others c' k hne hk)

theorem Published.after (h : s.Published) (e : JobEvent ε α) : (s.after e).Published := by
  have hsome : s.job.future.isSome = true := by rw [h.future]; rfl
  have hjob : (s.after e).job.future = s.job.future ∧
      (s.after e).job.submissions.length = s.job.submissions.length := by
    cases e with
    | step c =>
      cases hk : s.calls[c]? with
      | none =>
        rw [after_step_of_none hk]
        exact ⟨rfl, rfl⟩
      | some k =>
        obtain ⟨hfuture, hsubmissions, -⟩ := JobCall.settles_step hsome (h.calls c k hk)
        rw [after_step hk]
        exact ⟨hfuture, congrArg List.length hsubmissions⟩
    | _ =>
      refine ⟨(job_after_of_ne_step ?_).1, (job_after_of_ne_step ?_).2.2.2⟩ <;> rintro c ⟨⟩
  refine ⟨hjob.1.trans h.future, hjob.2.trans h.submissions, ?_⟩
  intro c k hk
  cases becomes_of_after hk with
  | stays hbefore _ => exact h.calls c k hbefore
  | begins asks => cases asks <;> exact .inl rfl
  | steps hbefore => exact .inr (JobCall.settles_step hsome (h.calls c _ hbefore)).2.2
  | expires hbefore =>
    obtain hearly | hsettles := h.calls c _ hbefore
    · rw [JobCall.expire_of_isEarly_or_isStarting (.inl hearly)]
      exact .inl hearly
    · exact .inr (JobCall.settles_expire hsettles)

/-! ### Histories in which all calls take their turns -/

theorem Orderly.after (h : s.Orderly) (hclear : s.isClear e = true) : (s.after e).Orderly := by
  obtain ⟨c, hidle⟩ | ⟨c, hunpublished⟩ | hpublished := h
  · cases e with
    | step c' =>
      cases hk : s.calls[c']? with
      | none =>
        rw [after_step_of_none hk]
        exact .inl ⟨c, hidle⟩
      | some k =>
        obtain hidle | hunpublished := (hidle.of_isClear hclear hk).step hk
        · exact .inl ⟨c', hidle⟩
        · exact .inr (.inl ⟨c', hunpublished⟩)
    | _ => exact .inl ⟨c, hidle.after_of_ne_step (by rintro c' ⟨⟩)⟩
  · by_cases he : e = .step c
    · subst he
      exact .inr (.inr hunpublished.step)
    · exact .inr (.inl ⟨c, hunpublished.after_of_ne_step hclear he⟩)
  · exact .inr (.inr (hpublished.after e))

theorem Orderly.run {es : List (JobEvent ε α)} (h : s.Orderly) (hturns : s.takesTurns es = true) :
    (s.run es).Orderly := by
  induction es generalizing s with
  | nil => exact h
  | cons e es ih =>
    obtain ⟨hclear, hturns⟩ := Bool.and_eq_true_iff.1 hturns
    exact ih (h.after hclear) hturns

/-- A call that goes on alone ends, or waits for work that has not ended. -/
theorem proceed_rests {j : Job ε α} (asks : Bool) {stage : JobStage ε α}
    (hfuture : ∀ f, j.future = some f → f < j.submissions.length) (h : stage.Sound j) :
    (∃ r, (j.proceed asks stage).2 = .ended r) ∨
      ∃ f, (j.proceed asks stage).2 = .wait f ∧
        (j.proceed asks stage).1.submissions[f]? = some none := by
  fun_induction Job.proceed j asks stage with
  | case1 j stage hlt ih =>
    obtain ⟨hfuture', h'⟩ := Job.sound_step asks hfuture h
    exact ih hfuture' h'
  | case2 j stage hlt =>
    obtain hended | hwaits | hstep := Job.progress asks h
    · exact .inl hended
    · exact .inr hwaits
    · exact absurd hstep hlt

/-- To let a call go on alone is to let it take steps, which is its turn if no other call is
starting the job. -/
theorem exists_steps_proceed (job : Job ε α) {calls : List (JobCall ε α)} {asks : Bool}
    {stage : JobStage ε α} (hk : calls[c]? = some ⟨asks, stage⟩)
    (hquiet : ∀ k ∈ calls.eraseIdx c, k.isStarting = false) :
    ∃ n, takesTurns ⟨job, calls⟩ (List.replicate n (.step c)) = true ∧
      run ⟨job, calls⟩ (List.replicate n (.step c)) =
        ⟨(job.proceed asks stage).1, calls.set c ⟨asks, (job.proceed asks stage).2⟩⟩ := by
  obtain ⟨hc, hget⟩ := List.getElem?_eq_some_iff.1 hk
  fun_induction Job.proceed job asks stage generalizing calls with
  | case1 job stage hlt ih =>
    have hstep : after ⟨job, calls⟩ (.step c) = ⟨(job.step asks stage).1,
        calls.set c ⟨asks, (job.step asks stage).2⟩⟩ := after_step (s := ⟨job, calls⟩) hk
    have hclear : isClear ⟨job, calls⟩ (.step c) = true := by
      refine Bool.or_eq_true_iff.2 (.inr (List.all_eq_true.2 fun k hk => ?_))
      rw [hquiet k hk, Bool.not_false]
    have hset := List.getElem?_set_self (a := ⟨asks, (job.step asks stage).2⟩) hc
    obtain ⟨hc', hget'⟩ := List.getElem?_eq_some_iff.1 hset
    obtain ⟨n, hturns, hrun⟩ :=
      ih hset (by rw [List.eraseIdx_set_eq]; exact hquiet) hc' hget'
    refine ⟨n + 1, ?_, ?_⟩
    · rw [List.replicate_succ, takesTurns, hclear, hstep, Bool.true_and]
      exact hturns
    · rw [List.replicate_succ, run_cons, hstep, hrun, List.set_set]
  | case2 job stage hlt =>
    refine ⟨0, rfl, ?_⟩
    rw [← hget, List.set_getElem_self]
    rfl

/-- A call that is made while no other is starting the job, and that goes on alone, takes its turn. It
does to the job what `Job.start` and `Job.ask` do, and afterwards again no call is starting the
job. -/
theorem exists_steps_alone (hs : s.Sound) (hquiet : ∀ k ∈ s.calls, k.isStarting = false)
    (asks : Bool) :
    ∃ n, s.takesTurns (.call asks :: List.replicate n (.step s.calls.length)) = true ∧
      (s.run (.call asks :: List.replicate n (.step s.calls.length))).job =
        (if asks then s.job.ask else s.job.start).1 ∧
      ∀ k ∈ (s.run (.call asks :: List.replicate n (.step s.calls.length))).calls,
        k.isStarting = false := by
  have hafter : s.after (.call asks) =
      ⟨s.job, s.calls ++ [⟨asks, if asks then .look else .test⟩]⟩ := rfl
  have halone : (if asks then s.job.ask else s.job.start) =
      s.job.proceed asks (if asks then .look else .test) := by cases asks <;> rfl
  have hothers : ∀ k ∈ (s.after (.call asks)).calls.eraseIdx s.calls.length,
      k.isStarting = false := by
    rw [hafter, List.eraseIdx_append_of_length_le (Nat.le_refl _), Nat.sub_self,
      List.eraseIdx_cons_zero, List.append_nil]
    exact hquiet
  obtain ⟨n, hturns, hrun⟩ := exists_steps_proceed s.job List.getElem?_concat_length hothers
  refine ⟨n, ?_, ?_, ?_⟩
  · rw [takesTurns, hafter]
    exact hturns
  · rw [run_cons, hafter, hrun, halone]
  · intro k hk
    rw [run_cons, hafter, hrun, List.set_append_right _ _ (Nat.le_refl _), Nat.sub_self] at hk
    obtain hk | hk := List.mem_append.1 hk
    · exact hquiet k hk
    · rw [List.mem_singleton.1 hk]
      have hsound : JobStage.Sound s.job (if asks then .look else .test) := by
        cases asks <;> trivial
      obtain ⟨r, hr⟩ | ⟨f, hf, -⟩ := proceed_rests asks hs.future hsound
      · rw [JobCall.isStarting, hr]
      · rw [JobCall.isStarting, hf]

/-! ### All histories -/

end JobState

end FieldTrace
