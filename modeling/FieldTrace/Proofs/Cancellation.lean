import FieldTrace.Proofs.Composition

/-! # Cancellation at every poll

A token that cancels itself at its poll number `n + 1` leaves an analysis that polls no more than
`n` times undisturbed, and ends every other one at that very poll, with nothing to show for it. Each
basic operation fares so (`Analysis.Interruptible`), and so does what is put together from them: a
cancellation passes through every fallback and leaves nothing in the cache. -/

namespace FieldTrace

/-- The run with a token that cancels itself at its poll number `n + 1`. -/
def Run.cancelling (r : Run) (n : Nat) : Run :=
  { r with token := { r.token with cancelAfter := some n } }

namespace Analysis

variable {α β : Type}

/-- An analysis on a run with a quiet token polls it and leaves it quiet. If the token cancels
itself after as many polls, nothing changes; if it does so earlier, the analysis ends there. -/
structure Interruptible (x : Analysis α) : Prop where
  quiet : ∀ {r res r'}, x.runOn r = (res, r') → r.token.Quiet → r'.token.Quiet
  polls_le : ∀ {r res r'}, x.runOn r = (res, r') → r.token.polls ≤ r'.token.polls
  undisturbed : ∀ {r res r'}, x.runOn r = (res, r') → r.token.Quiet → ∀ {n}, r'.token.polls ≤ n →
    x.runOn (r.cancelling n) = (res, r'.cancelling n)
  interrupted : ∀ {r res r'}, x.runOn r = (res, r') → r.token.Quiet → ∀ {n}, r.token.polls ≤ n →
    n < r'.token.polls →
      ∃ r'', x.runOn (r.cancelling n) = (.error .analysisCancelled, r'') ∧ r''.token.polls = n + 1

namespace Interruptible

/-! ### Basic operations -/

/-- What does not look at the token does not notice it. -/
theorem of_frame {x : Analysis α} (htoken : ∀ r, (x.runOn r).2.token = r.token)
    (hframe : ∀ r n, x.runOn (r.cancelling n) = ((x.runOn r).1, (x.runOn r).2.cancelling n)) :
    Interruptible x := by
  have hend : ∀ {r res r'}, x.runOn r = (res, r') → r'.token = r.token := by
    intro r res r' hrun
    rw [← htoken r, hrun]
  constructor
  · intro r res r' hrun hr
    rwa [hend hrun]
  · intro r res r' hrun
    exact Nat.le_of_eq (congrArg Token.polls (hend hrun)).symm
  · intro r res r' hrun _ n _
    rw [hframe, hrun]
  · intro r res r' hrun _ n hle hlt
    rw [hend hrun] at hlt
    omega

protected theorem pure (v : α) : Interruptible (pure v) := .of_frame (fun _ => rfl) (fun _ _ => rfl)

protected theorem throw (e : Failure) : Interruptible (throw e : Analysis α) :=
  .of_frame (fun _ => rfl) (fun _ _ => rfl)

protected theorem count (name : String) (amount : Int) : Interruptible (count name amount) :=
  .of_frame (fun _ => rfl) (fun _ _ => rfl)

protected theorem ask (a : IndexAccess) (call : IndexCall) (answer : α) :
    Interruptible (a.ask call answer) := by
  refine .of_frame (fun r => ?_) (fun r n => ?_)
  · rw [runOn_ask]
  · rw [runOn_ask, runOn_ask]
    rfl

/-- The poll number `n + 1` is the one that cancels. -/
protected theorem checkpoint : Interruptible checkpoint := by
  have hend : ∀ {r res r'}, checkpoint.runOn r = (res, r') →
      r' = { r with token := r.token.poll } := by
    intro r res r' hrun
    rw [runOn_checkpoint] at hrun
    exact (Prod.mk.inj hrun).2.symm
  constructor
  · intro r res r' hrun hr
    rw [hend hrun]
    exact hr.poll
  · intro r res r' hrun
    rw [hend hrun]
    exact Nat.le_succ _
  · intro r res r' hrun hr n hle
    rw [runOn_checkpoint, hr.poll.isCancelled] at hrun
    cases hrun
    -- this poll comes too early to cancel
    have hbefore : decide (n < r.token.polls + 1) = false := decide_eq_false (Nat.not_lt.mpr hle)
    have hpoll : (r.cancelling n).token.poll = { r.token.poll with cancelAfter := some n } := by
      simp only [Run.cancelling, Token.poll, hr.isCancelled, hr.cancelAfter, Option.any_some,
        Option.any_none, hbefore, Bool.or_false]
    have hquiet : ({ r.token.poll with cancelAfter := some n } : Token).isCancelled = false :=
      hr.poll.isCancelled
    rw [runOn_checkpoint, hpoll, hquiet]
    rfl
  · intro r res r' hrun _ n hle hlt
    rw [hend hrun] at hlt
    have hpolls : n = r.token.polls := Nat.le_antisymm (Nat.lt_succ_iff.mp hlt) hle
    refine ⟨{ r.cancelling n with token := (r.cancelling n).token.poll }, ?_, ?_⟩
    · rw [runOn_checkpoint]
      simp [Run.cancelling, Token.poll, hpolls]
    · rw [hpolls]
      rfl

/-! ### Ways of putting them together -/

/-- The settings are the same on both runs. -/
protected theorem settings {f : Run → Analysis α} (hf : ∀ r, Interruptible (f r))
    (hsame : ∀ r r' : Run, r.settings = r'.settings → f r = f r') : Interruptible (get >>= f) := by
  have hrun : ∀ r, runOn r (get >>= f) = runOn r (f r) := fun r => runOn_bind_ok r (runOn_get r) f
  have hcut : ∀ (r : Run) n, runOn (r.cancelling n) (get >>= f) = runOn (r.cancelling n) (f r) := by
    intro r n
    rw [hrun, hsame (r.cancelling n) r rfl]
  constructor
  · intro r res r' h
    exact (hf r).quiet (hrun r ▸ h)
  · intro r res r' h
    exact (hf r).polls_le (hrun r ▸ h)
  · intro r res r' h hr n hle
    rw [hcut]
    exact (hf r).undisturbed (hrun r ▸ h) hr hle
  · intro r res r' h hr n hle hlt
    rw [hcut]
    exact (hf r).interrupted (hrun r ▸ h) hr hle hlt

/-- If the first part is cut short the second is not reached. -/
protected theorem bind {x : Analysis α} {f : α → Analysis β} (hx : Interruptible x)
    (hf : ∀ v, Interruptible (f v)) : Interruptible (x >>= f) := by
  constructor
  · intro r res r' hrun hr
    obtain ⟨e, hfirst, -⟩ | ⟨v, r₁, hfirst, hsecond⟩ := runOn_bind_cases r hrun
    · exact hx.quiet hfirst hr
    · exact (hf v).quiet hsecond (hx.quiet hfirst hr)
  · intro r res r' hrun
    obtain ⟨e, hfirst, -⟩ | ⟨v, r₁, hfirst, hsecond⟩ := runOn_bind_cases r hrun
    · exact hx.polls_le hfirst
    · exact Nat.le_trans (hx.polls_le hfirst) ((hf v).polls_le hsecond)
  · intro r res r' hrun hr n hle
    obtain ⟨e, hfirst, rfl⟩ | ⟨v, r₁, hfirst, hsecond⟩ := runOn_bind_cases r hrun
    · exact runOn_bind_error _ (hx.undisturbed hfirst hr hle) f
    · have hle₁ := Nat.le_trans ((hf v).polls_le hsecond) hle
      rw [runOn_bind_ok _ (hx.undisturbed hfirst hr hle₁) f]
      exact (hf v).undisturbed hsecond (hx.quiet hfirst hr) hle
  · intro r res r' hrun hr n hle hlt
    -- the first part is cut short if it polls more than `n` times
    have hcut : ∀ {res₁ r₁}, runOn r x = (res₁, r₁) → n < r₁.token.polls →
        ∃ r'', runOn (r.cancelling n) (x >>= f) = (.error .analysisCancelled, r'') ∧
          r''.token.polls = n + 1 := by
      intro res₁ r₁ hfirst hlt₁
      obtain ⟨r'', hcut, hpolls⟩ := hx.interrupted hfirst hr hle hlt₁
      exact ⟨r'', runOn_bind_error _ hcut f, hpolls⟩
    obtain ⟨e, hfirst, -⟩ | ⟨v, r₁, hfirst, hsecond⟩ := runOn_bind_cases r hrun
    · exact hcut hfirst hlt
    · by_cases hlt₁ : n < r₁.token.polls
      · exact hcut hfirst hlt₁
      · have hle₁ : r₁.token.polls ≤ n := Nat.not_lt.mp hlt₁
        rw [runOn_bind_ok _ (hx.undisturbed hfirst hr hle₁) f]
        exact (hf v).interrupted hsecond (hx.quiet hfirst hr) hle₁ hlt

/-- A search that is cut short leaves nothing to remember. -/
protected theorem cached {k : CacheKey} {x : Analysis k.Answer} (hx : Interruptible x) :
    Interruptible (cached k x) := by
  -- storing the answer does not touch the token
  have hstored : ∀ {res : Except Failure k.Answer} {r₁ r' : Run},
      ((∃ e, res = .error e ∧ r' = r₁) ∨
        ∃ v, res = .ok v ∧ r' = { r₁ with cache := r₁.cache.store k v }) → r'.token = r₁.token := by
    rintro _ _ _ (⟨_, _, rfl⟩ | ⟨_, _, rfl⟩) <;> rfl
  constructor
  · intro r res r' hrun hr
    obtain ⟨v, -, -, rfl⟩ | ⟨-, r₁, hsearch, hend⟩ := runOn_cached_cases r hrun
    · exact hr
    · rw [hstored hend]
      exact hx.quiet hsearch hr
  · intro r res r' hrun
    obtain ⟨v, -, -, rfl⟩ | ⟨-, r₁, hsearch, hend⟩ := runOn_cached_cases r hrun
    · exact Nat.le_refl _
    · have hle := hx.polls_le hsearch
      rwa [← hstored hend] at hle
  · intro r res r' hrun hr n hle
    obtain ⟨v, hfind, rfl, rfl⟩ | ⟨hfind, r₁, hsearch, hend⟩ := runOn_cached_cases r hrun
    · exact runOn_cached_hit (r.cancelling n) hfind x
    · rw [hstored hend] at hle
      have hcut : runOn { r.cancelling n with cache := (r.cancelling n).cache.recordMiss k } x =
        (res, r₁.cancelling n) := hx.undisturbed hsearch hr hle
      rw [runOn_cached_miss (r.cancelling n) hfind x, hcut]
      obtain ⟨e, rfl, rfl⟩ | ⟨v, rfl, rfl⟩ := hend <;> rfl
  · intro r res r' hrun hr n hle hlt
    obtain ⟨v, -, -, rfl⟩ | ⟨hfind, r₁, hsearch, hend⟩ := runOn_cached_cases r hrun
    · exact absurd hle (Nat.not_le.mpr hlt)
    · rw [hstored hend] at hlt
      obtain ⟨r'', hcut, hpolls⟩ := hx.interrupted hsearch hr hle hlt
      refine ⟨r'', ?_, hpolls⟩
      have hcut' : runOn { r.cancelling n with cache := (r.cancelling n).cache.recordMiss k } x =
        (.error .analysisCancelled, r'') := hcut
      rw [runOn_cached_miss (r.cancelling n) hfind x, hcut']

/-- No fallback stops a cancellation. -/
protected theorem attempt {x : Analysis α} (hx : Interruptible x) : Interruptible (attempt x) := by
  have hbranch : ∀ {r res r'}, runOn r (attempt x) = (res, r') →
      ∃ res₁, runOn r x = (res₁, r') := by
    intro r res r' hrun
    rw [runOn_attempt] at hrun
    rcases hx₁ : runOn r x with ⟨e | v, r₁⟩ <;>
      · rw [hx₁] at hrun
        exact ⟨_, by rw [(Prod.mk.inj hrun).2]⟩
  constructor
  · intro r res r' hrun
    obtain ⟨res₁, hbranch⟩ := hbranch hrun
    exact hx.quiet hbranch
  · intro r res r' hrun
    obtain ⟨res₁, hbranch⟩ := hbranch hrun
    exact hx.polls_le hbranch
  · intro r res r' hrun hr n hle
    obtain ⟨res₁, hbranch⟩ := hbranch hrun
    rw [runOn_attempt, hbranch] at hrun
    rw [runOn_attempt, hx.undisturbed hbranch hr hle]
    cases res₁ <;> cases hrun <;> rfl
  · intro r res r' hrun hr n hle hlt
    obtain ⟨res₁, hbranch⟩ := hbranch hrun
    obtain ⟨r'', hcut, hpolls⟩ := hx.interrupted hbranch hr hle hlt
    refine ⟨r'', ?_, hpolls⟩
    rw [runOn_attempt, hcut]
    rfl

end Interruptible

theorem Composed.interruptible {a : IndexAccess} {x : Analysis α} (h : x.Composed a) :
    Interruptible x := by
  induction h with
  | pure v => exact .pure v
  | throw e => exact .throw e
  | checkpoint => exact .checkpoint
  | count name amount => exact .count name amount
  | ask call answer => exact .ask a call answer
  | settings _ hsame ih => exact .settings ih hsame
  | bind _ _ ihx ihf => exact .bind ihx ihf
  | cached _ ih => exact .cached ih
  | attempt _ ih => exact .attempt ih

end Analysis

/-! ### All or nothing -/

/-- Whatever the index fails at, a token that cancels itself at its poll number `n + 1` ends an
analysis that polls it more than `n` times, with no answer and after `n + 1` polls; any other
analysis ends as if the token were never to cancel, after as many polls. -/
theorem start_cancelAfter (a : IndexAccess) (s : Settings) (q : Inquiry) (n : Nat) :
    (Tracer.start s { cancelAfter := some n } (q.perform a)).1 =
        (if n < (Tracer.start s {} (q.perform a)).2.token.polls then .error .analysisCancelled
        else (Tracer.start s {} (q.perform a)).1) ∧
      (Tracer.start s { cancelAfter := some n } (q.perform a)).2.token.polls =
        min (n + 1) (Tracer.start s {} (q.perform a)).2.token.polls := by
  have hx := (q.composed_perform a).interruptible
  have hcancelling : Tracer.start s { cancelAfter := some n } (q.perform a) =
      (q.perform a).runOn (Run.cancelling { settings := s, token := {} } n) := rfl
  rw [hcancelling]
  rcases hrun : Tracer.start s {} (q.perform a) with ⟨res, r'⟩
  by_cases hlt : n < r'.token.polls
  · obtain ⟨r'', hcut, hpolls⟩ := hx.interrupted hrun Token.quiet_default (Nat.zero_le n) hlt
    rw [hcut, if_pos hlt]
    exact ⟨rfl, by simp only; omega⟩
  · rw [hx.undisturbed hrun Token.quiet_default (Nat.not_lt.mp hlt), if_neg hlt]
    refine ⟨rfl, ?_⟩
    show r'.token.polls = min (n + 1) r'.token.polls
    omega

end FieldTrace
