import FieldTrace.Run.Access

/-! # What computations do to a run

One equation for each way of building an analysis: what it answers on a given run and which run it
leaves behind. Everything that is proved about analyses rests on these equations. -/

namespace FieldTrace

/-! ### Computations that change a state and may fail -/

section

variable {σ ε α β : Type} {x : ExceptT ε (StateM σ) α} {s s' : σ}

theorem run_bind (x : ExceptT ε (StateM σ) α) (f : α → ExceptT ε (StateM σ) β) (s : σ) :
    (x >>= f).run s = match x.run s with
      | (.ok v, s') => (f v).run s'
      | (.error e, s') => (.error e, s') := by
  show ExceptT.bindCont f (x.run s).1 (x.run s).2 = _
  rcases x.run s with ⟨e | v, s'⟩ <;> rfl

theorem run_bind_ok {v : α} (h : x.run s = (.ok v, s')) (f : α → ExceptT ε (StateM σ) β) :
    (x >>= f).run s = (f v).run s' := by
  rw [run_bind, h]

theorem run_bind_error {e : ε} (h : x.run s = (.error e, s')) (f : α → ExceptT ε (StateM σ) β) :
    (x >>= f).run s = (.error e, s') := by
  rw [run_bind, h]

end

namespace Cache

variable {κ σ ε : Type} {Value : κ → Type} [DecidableEq κ] [Grouped κ] {view : σ → Cache κ Value}
  {update : (Cache κ Value → Cache κ Value) → σ → σ} {k : κ} {s : σ}

/-- A value that is remembered is a hit. -/
theorem run_getOrCompute_hit {v : Value k} (h : (view s).find? k = some v)
    (compute : ExceptT ε (StateM σ) (Value k)) :
    (getOrCompute view update k compute).run s = (.ok v, update (fun c => c.recordHit k) s) := by
  have hget : (get : ExceptT ε (StateM σ) σ).run s = (.ok s, s) := rfl
  unfold getOrCompute
  rw [run_bind_ok hget, h]
  rfl

/-- A value that is not remembered is a miss; it is remembered once it is computed. -/
theorem run_getOrCompute_miss (h : (view s).find? k = none)
    (compute : ExceptT ε (StateM σ) (Value k)) :
    (getOrCompute view update k compute).run s =
      match compute.run (update (fun c => c.recordMiss k) s) with
      | (.ok v, s') => (.ok v, update (fun c => c.store k v) s')
      | (.error e, s') => (.error e, s') := by
  have hget : (get : ExceptT ε (StateM σ) σ).run s = (.ok s, s) := rfl
  have hmiss : (modify (update (fun c => c.recordMiss k)) : ExceptT ε (StateM σ) Unit).run s =
      (.ok (), update (fun c => c.recordMiss k) s) := rfl
  unfold getOrCompute
  rw [run_bind_ok hget, h]
  dsimp only
  rw [run_bind_ok hmiss, run_bind]
  rcases compute.run (update (fun c => c.recordMiss k) s) with ⟨e | v, s'⟩ <;> rfl

end Cache

namespace Analysis

variable {α β : Type} (r : Run)

/-! ### Plain computations -/

@[simp] theorem runOn_pure (v : α) : runOn r (pure v) = (.ok v, r) := rfl

@[simp] theorem runOn_get : runOn r get = (.ok r, r) := rfl

@[simp] theorem runOn_modify (f : Run → Run) : runOn r (modify f) = (.ok (), f r) := rfl

theorem runOn_bind (x : Analysis α) (f : α → Analysis β) :
    runOn r (x >>= f) = match runOn r x with
      | (.ok v, r') => runOn r' (f v)
      | (.error e, r') => (.error e, r') := by
  refine (run_bind x f r).trans ?_
  unfold runOn
  rcases x.run r with ⟨e | v, r'⟩ <;> rfl

theorem runOn_bind_ok {x : Analysis α} {v : α} {r' : Run} (h : runOn r x = (.ok v, r'))
    (f : α → Analysis β) : runOn r (x >>= f) = runOn r' (f v) := by
  rw [runOn_bind, h]

theorem runOn_bind_error {x : Analysis α} {e : Failure} {r' : Run}
    (h : runOn r x = (.error e, r')) (f : α → Analysis β) :
    runOn r (x >>= f) = (.error e, r') := by
  rw [runOn_bind, h]

/-- A sequence ends well if its parts do, one after the other. -/
theorem runOn_bind_eq_ok {x : Analysis α} {f : α → Analysis β} {w : β} {r₂ : Run} :
    runOn r (x >>= f) = (.ok w, r₂) ↔
      ∃ v r₁, runOn r x = (.ok v, r₁) ∧ runOn r₁ (f v) = (.ok w, r₂) := by
  rw [runOn_bind]
  rcases runOn r x with ⟨e | v, r₁⟩
  · simp
  · constructor
    · intro h
      exact ⟨v, r₁, rfl, h⟩
    · rintro ⟨_, _, ⟨rfl, rfl⟩, h⟩
      exact h

/-- A sequence ends where its first part fails, or with its second part. -/
theorem runOn_bind_cases {x : Analysis α} {f : α → Analysis β} {res : Except Failure β} {r₂ : Run}
    (h : runOn r (x >>= f) = (res, r₂)) :
    (∃ e, runOn r x = (.error e, r₂) ∧ res = .error e) ∨
      ∃ v r₁, runOn r x = (.ok v, r₁) ∧ runOn r₁ (f v) = (res, r₂) := by
  rw [runOn_bind] at h
  rcases hx : runOn r x with ⟨e | v, r₁⟩
  · rw [hx] at h
    cases h
    exact .inl ⟨e, rfl, rfl⟩
  · rw [hx] at h
    exact .inr ⟨v, r₁, rfl, h⟩

/-! ### Polls and failed branches -/

theorem runOn_checkpoint :
    runOn r checkpoint =
      (if r.token.poll.isCancelled then .error .analysisCancelled else .ok (),
        { r with token := r.token.poll }) := by
  simp only [checkpoint, runOn_bind, runOn_modify, runOn_get]
  split <;> rfl

theorem runOn_tryCatch (x : Analysis α) (f : Failure → Analysis α) :
    runOn r (tryCatch x f) = match runOn r x with
      | (.ok v, r') => (.ok v, r')
      | (.error e, r') => runOn r' (f e) := by
  simp only [tryCatch, tryCatchThe, MonadExceptOf.tryCatch, ExceptT.tryCatch, runOn,
    ExceptT.run_mk, bind, StateT.bind]
  have h : x r = x.run r := rfl
  rw [h]
  rcases x.run r with ⟨e | v, r'⟩ <;> rfl

theorem runOn_attempt (x : Analysis α) :
    runOn r (attempt x) = match runOn r x with
      | (.ok v, r') => (.ok (some v), r')
      | (.error e, r') => (if e.isCancellation then .error e else .ok none, r') := by
  rw [attempt, runOn_tryCatch, runOn_bind]
  rcases runOn r x with ⟨e | v, r'⟩
  · simp only
    split <;> rfl
  · rfl

/-- A branch that is not cancelled has its answer, or none if it fails. -/
theorem runOn_attempt_eq_ok {x : Analysis α} {found : Option α} {r' : Run}
    (h : runOn r (attempt x) = (.ok found, r')) :
    ∃ res, runOn r x = (res, r') ∧ found = res.toOption ∧
      ∀ e, res = .error e → e.isCancellation = false := by
  rw [runOn_attempt] at h
  rcases hx : runOn r x with ⟨e | v, r₁⟩
  · rw [hx] at h
    cases he : e.isCancellation with
    | true => simp [he] at h
    | false =>
      simp only [he, Bool.false_eq_true, if_false, Prod.mk.injEq, Except.ok.injEq] at h
      obtain ⟨rfl, rfl⟩ := h
      exact ⟨.error e, rfl, rfl, by rintro _ ⟨⟩; exact he⟩
  · rw [hx] at h
    cases h
    exact ⟨.ok v, rfl, rfl, nofun⟩

/-! ### Questions to the index and remembered answers -/

theorem runOn_ask (a : IndexAccess) (call : IndexCall) (answer : α) :
    runOn r (a.ask call answer) =
      (match a.fails r.indexCalls call with
        | some e => .error e
        | none => .ok answer,
        { r with indexCalls := r.indexCalls + 1 }) := by
  simp only [IndexAccess.ask, runOn_bind, runOn_modify, runOn_get]
  cases a.fails r.indexCalls call <;> rfl

theorem runOn_cached_hit {k : CacheKey} {v : k.Answer} (h : r.cache.find? k = some v)
    (x : Analysis k.Answer) :
    runOn r (cached k x) = (.ok v, { r with cache := r.cache.recordHit k }) :=
  Cache.run_getOrCompute_hit h x

theorem runOn_cached_miss {k : CacheKey} (h : r.cache.find? k = none) (x : Analysis k.Answer) :
    runOn r (cached k x) = match runOn { r with cache := r.cache.recordMiss k } x with
      | (.ok v, r') => (.ok v, { r' with cache := r'.cache.store k v })
      | (.error e, r') => (.error e, r') := by
  refine (Cache.run_getOrCompute_miss h x).trans ?_
  unfold runOn
  rcases x.run { r with cache := r.cache.recordMiss k } with ⟨e | v, r'⟩ <;> rfl

/-- An answer is remembered, or it is searched for; a search that fails leaves nothing behind. -/
theorem runOn_cached_cases {k : CacheKey} {x : Analysis k.Answer} {res : Except Failure k.Answer}
    {r' : Run} (h : runOn r (cached k x) = (res, r')) :
    (∃ v, r.cache.find? k = some v ∧ res = .ok v ∧ r' = { r with cache := r.cache.recordHit k }) ∨
      r.cache.find? k = none ∧ ∃ r₁, runOn { r with cache := r.cache.recordMiss k } x = (res, r₁) ∧
        ((∃ e, res = .error e ∧ r' = r₁) ∨
          ∃ v, res = .ok v ∧ r' = { r₁ with cache := r₁.cache.store k v }) := by
  cases hfind : r.cache.find? k with
  | some v =>
    rw [runOn_cached_hit r hfind] at h
    cases h
    exact .inl ⟨v, rfl, rfl, rfl⟩
  | none =>
    rw [runOn_cached_miss r hfind] at h
    rcases hx : runOn { r with cache := r.cache.recordMiss k } x with ⟨e | v, r₁⟩
    · rw [hx] at h
      cases h
      exact .inr ⟨rfl, _, rfl, .inl ⟨e, rfl, rfl⟩⟩
    · rw [hx] at h
      cases h
      exact .inr ⟨rfl, _, rfl, .inr ⟨v, rfl, rfl⟩⟩

/-! ### What an answer satisfies -/

/-- If the analysis gives an answer on the run, then one that satisfies `Q`, together with the run
that it leaves behind. -/
def Yields (x : Analysis α) (Q : α → Run → Prop) : Prop := ∀ v r', runOn r x = (.ok v, r') → Q v r'

namespace Yields

variable {r} {x : Analysis α} {P Q : α → Run → Prop}

protected theorem pure {v : α} (h : Q v r) : Yields r (pure v) Q := by
  rintro _ _ ⟨⟩
  exact h

protected theorem bind {f : α → Analysis β} {R : β → Run → Prop} (h : Yields r x P)
    (hf : ∀ v r', P v r' → Yields r' (f v) R) : Yields r (x >>= f) R := by
  intro w r₂ hrun
  obtain ⟨v, r₁, hx, hv⟩ := (runOn_bind_eq_ok r).1 hrun
  exact hf v r₁ (h v r₁ hx) w r₂ hv

theorem mono (h : Yields r x P) (hPQ : ∀ v r', P v r' → Q v r') : Yields r x Q :=
  fun v r' hrun => hPQ v r' (h v r' hrun)

theorem any : Yields r x (fun _ _ => True) := fun _ _ _ => trivial

protected theorem checkpoint {Q : Unit → Run → Prop} (h : Q () { r with token := r.token.poll }) :
    Yields r checkpoint Q := by
  intro _ _ hrun
  rw [runOn_checkpoint] at hrun
  split at hrun
  · cases hrun
  · obtain ⟨-, rfl⟩ := Prod.mk.inj hrun
    exact h

protected theorem count {Q : Unit → Run → Prop} {name : String} {amount : Int}
    (h : Q () (r.count name amount)) : Yields r (count name amount) Q := by
  rintro _ _ ⟨⟩
  exact h

/-- A question that is answered is answered truly, and adds to the number of questions. -/
protected theorem ask (a : IndexAccess) (call : IndexCall) (answer : α) :
    Yields r (a.ask call answer)
      (fun v r' => v = answer ∧ r' = { r with indexCalls := r.indexCalls + 1 }) := by
  intro v r' hrun
  rw [runOn_ask] at hrun
  split at hrun <;> cases hrun
  exact ⟨rfl, rfl⟩

/-- A branch has its answer, or none if it fails otherwise than by cancellation. -/
protected theorem attempt {Q : Option α → Run → Prop}
    (hok : Yields r x (fun v r' => Q (some v) r'))
    (hfail : ∀ e r', runOn r x = (.error e, r') → e.isCancellation = false → Q none r') :
    Yields r (attempt x) Q := by
  intro found r' hrun
  obtain ⟨res, hx, rfl, hres⟩ := runOn_attempt_eq_ok r hrun
  cases res with
  | error e => exact hfail e r' hx (hres e rfl)
  | ok v => exact hok v r' hx

end Yields

/-! ### Analyses that only cancellation ends early -/

/-- The analysis fails only by cancellation. -/
def OnlyCancels (x : Analysis α) : Prop :=
  ∀ r e r', runOn r x = (.error e, r') → e.isCancellation = true

namespace OnlyCancels

omit r

protected theorem pure (v : α) : OnlyCancels (pure v) := by
  rintro _ _ _ ⟨⟩

protected theorem bind {x : Analysis α} {f : α → Analysis β} (h : OnlyCancels x)
    (hf : ∀ v, OnlyCancels (f v)) : OnlyCancels (x >>= f) := by
  intro r e r₂ hrun
  rw [runOn_bind] at hrun
  rcases hx : runOn r x with ⟨e' | v, r₁⟩
  · rw [hx] at hrun
    cases hrun
    exact h r _ _ hx
  · rw [hx] at hrun
    exact hf v r₁ e r₂ hrun

protected theorem checkpoint : OnlyCancels checkpoint := by
  intro r e r' hrun
  rw [runOn_checkpoint] at hrun
  split at hrun
  · cases hrun
    rfl
  · cases hrun

protected theorem count (name : String) (amount : Int) : OnlyCancels (count name amount) := by
  rintro _ _ _ ⟨⟩

/-- Whatever else goes wrong in a branch ends that branch alone. -/
protected theorem attempt (x : Analysis α) : OnlyCancels (attempt x) := by
  intro r e r' hrun
  rw [runOn_attempt] at hrun
  rcases hx : runOn r x with ⟨e' | v, r₁⟩
  · rw [hx] at hrun
    cases he : e'.isCancellation with
    | true =>
      simp only [he, if_true, Prod.mk.injEq, Except.error.injEq] at hrun
      rw [← hrun.1, he]
    | false => simp [he] at hrun
  · rw [hx] at hrun
    cases hrun

end OnlyCancels

end Analysis

/-! ### Counters -/

/-- The value of a counter; one that was never written stands at zero. -/
def Run.counter (r : Run) (name : String) : Int := r.counters.getD name 0

@[simp] theorem Run.counter_count (r : Run) (name : String) (amount : Int) :
    (r.count name amount).counter name = r.counter name + amount := by
  simp [Run.counter, Run.count, Table.getD, Table.get?_alter]

/-! ### Lookups in a changed cache -/

namespace Cache

variable {κ : Type} {Value : κ → Type} [DecidableEq κ] [Grouped κ] (c : Cache κ Value)

omit [Grouped κ] c in
theorem findIn_storeIn_self (k : κ) (v : Value k) (es : List ((k : κ) × Value k)) :
    findIn k (storeIn k v es) = some v := by
  induction es with
  | nil => simp [storeIn, findIn]
  | cons e es ih => by_cases h : e.1 = k <;> simp [storeIn, findIn, h, ih]

omit [Grouped κ] c in
theorem findIn_storeIn_of_ne {k k' : κ} (h : k ≠ k') (v : Value k)
    (es : List ((k : κ) × Value k)) : findIn k' (storeIn k v es) = findIn k' es := by
  induction es with
  | nil => simp [storeIn, findIn, h]
  | cons e es ih =>
    by_cases he : e.1 = k
    · simp [storeIn, findIn, he, h]
    · simp [storeIn, findIn, he, ih]

omit [Grouped κ] in
@[simp] theorem find?_store_self (k : κ) (v : Value k) : (c.store k v).find? k = some v :=
  findIn_storeIn_self k v c.entries

omit [Grouped κ] in
theorem find?_store_of_ne {k k' : κ} (h : k ≠ k') (v : Value k) :
    (c.store k v).find? k' = c.find? k' :=
  findIn_storeIn_of_ne h v c.entries

end Cache

end FieldTrace
