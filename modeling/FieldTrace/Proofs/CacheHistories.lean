import FieldTrace.Proofs.Runs

/-! # Histories of a cache

Values are asked for one after the other, and a factory that computes one may ask for others
meanwhile, may go on after one of them failed, and may do what it likes with the rest of the state
(`Cache.Factory`). An observer notes when a call begins, when a factory returns a value and when a
call does (`Cache.Event`). All that the cache does is `Cache.getOrCompute`; the notes are taken
around it and decide nothing. -/

namespace FieldTrace

namespace Cache

variable {κ σ ε : Type} {Value : κ → Type}

/-- A cache that is part of a state. -/
structure Part (σ κ : Type) (Value : κ → Type) where
  view : σ → Cache κ Value
  update : (Cache κ Value → Cache κ Value) → σ → σ
  view_update : ∀ f s, view (update f s) = f (view s)

/-- A computation of the value of a key. -/
inductive Factory (part : Part σ κ Value) (ε : Type) : κ → Type where
  /-- It returns a value or raises an exception. -/
  | finish {k : κ} (result : Except ε (Value k)) : Factory part ε k
  /-- It changes the state around the cache, and goes on as it finds the state. -/
  | proceed {k : κ} (change : σ → σ) (keeps : ∀ s, part.view (change s) = part.view s)
      (next : σ → Factory part ε k) : Factory part ε k
  /-- It asks for another value, and goes on with what comes of it. -/
  | ask {k : κ} (j : κ) (inner : Factory part ε j) (next : Except ε (Value j) → Factory part ε k) :
      Factory part ε k

/-- What an observer notes. -/
inductive Event (κ : Type) (Value : κ → Type) where
  /-- A call begins, while the values of some keys are being computed. -/
  | asked (k : κ) (pending : List κ)
  /-- The factory of a key returns a value. -/
  | computed (k : κ) (v : Value k)
  /-- A call returns a value. -/
  | returned (k : κ) (v : Value k)

/-- A state with the notes of an observer. -/
structure Watched (σ κ : Type) (Value : κ → Type) where
  state : σ
  log : List (Event κ Value) := []

/-- A computation that is observed. -/
abbrev Watching (σ κ : Type) (Value : κ → Type) (ε : Type) := ExceptT ε (StateM (Watched σ κ Value))

/-- Take a note. -/
def note (e : Event κ Value) : Watching σ κ Value ε Unit :=
  modify (fun w => { w with log := w.log ++ [e] })

/-- The cache as part of the state with the notes. -/
def Part.watched (part : Part σ κ Value) : Part (Watched σ κ Value) κ Value where
  view w := part.view w.state
  update f w := { w with state := part.update f w.state }
  view_update f w := part.view_update f w.state

variable [DecidableEq κ] [Grouped κ] (part : Part σ κ Value)

/-- A call that is observed. -/
def call (pending : List κ) (k : κ) (compute : Watching σ κ Value ε (Value k)) :
    Watching σ κ Value ε (Value k) := do
  note (.asked k pending)
  let v ← getOrCompute part.watched.view part.watched.update k (do
    let v ← compute
    note (.computed k v)
    return v)
  note (.returned k v)
  return v

/-- Run a factory while the values of some keys are being computed. -/
def Factory.run {k : κ} : Factory part ε k → List κ → Watching σ κ Value ε (Value k)
  | finish result, _ => ExceptT.mk (pure result)
  | proceed change _ next, pending => do
    modify (fun w => { w with state := change w.state })
    (next (← get).state).run pending
  | ask j inner next, pending => ExceptT.mk (do
    let result ← (call part pending j (inner.run (j :: pending))).run
    ((next result).run pending).run)

/-! ### What a call does -/

namespace Watched

variable (w : Watched σ κ Value) (pending : List κ) (k : κ) (v : Value k)

/-- A call finds the value. -/
def hit : Watched σ κ Value where
  state := part.update (fun c => c.recordHit k) w.state
  log := w.log ++ [.asked k pending, .returned k v]

/-- A call does not find the value. -/
def miss : Watched σ κ Value where
  state := part.update (fun c => c.recordMiss k) w.state
  log := w.log ++ [.asked k pending]

/-- The value has been computed. -/
def fill : Watched σ κ Value where
  state := part.update (fun c => c.store k v) w.state
  log := w.log ++ [.computed k v, .returned k v]

end Watched

variable {part} {pending : List κ} {k : κ} {w w' : Watched σ κ Value}

omit [DecidableEq κ] in
theorem view_hit (v : Value k) :
    part.view (w.hit part pending k v).state = (part.view w.state).recordHit k :=
  part.view_update _ _

omit [DecidableEq κ] in
theorem view_miss :
    part.view (w.miss part pending k).state = (part.view w.state).recordMiss k :=
  part.view_update _ _

omit [Grouped κ] in
theorem view_fill (v : Value k) :
    part.view (w.fill part k v).state = (part.view w.state).store k v :=
  part.view_update _ _

omit [DecidableEq κ] [Grouped κ] in
theorem run_note (e : Event κ Value) :
    (note e : Watching σ κ Value ε Unit).run w = (.ok (), { w with log := w.log ++ [e] }) := rfl

theorem run_call_hit {v : Value k} (h : (part.view w.state).find? k = some v)
    (compute : Watching σ κ Value ε (Value k)) :
    (call part pending k compute).run w = (.ok v, w.hit part pending k v) := by
  let w₁ : Watched σ κ Value := { w with log := w.log ++ [.asked k pending] }
  have hfind : (part.watched.view w₁).find? k = some v := h
  unfold call
  rw [run_bind_ok (run_note (.asked k pending)), run_bind_ok (run_getOrCompute_hit hfind _),
    run_bind_ok (run_note (.returned k v))]
  show (_, Watched.mk _ ((w.log ++ [.asked k pending]) ++ [.returned k v])) = _
  rw [List.append_assoc]
  rfl

theorem run_call_ok (h : (part.view w.state).find? k = none) {v : Value k}
    {compute : Watching σ κ Value ε (Value k)}
    (h' : compute.run (w.miss part pending k) = (.ok v, w')) :
    (call part pending k compute).run w = (.ok v, w'.fill part k v) := by
  let w₁ : Watched σ κ Value := { w with log := w.log ++ [.asked k pending] }
  have hfind : (part.watched.view w₁).find? k = none := h
  have hcompute : compute.run (part.watched.update (fun c => c.recordMiss k) w₁) = (.ok v, w') := h'
  unfold call
  rw [run_bind_ok (run_note (.asked k pending)), run_bind, run_getOrCompute_miss hfind,
    run_bind_ok hcompute]
  show (_, Watched.mk _ ((w'.log ++ [.computed k v]) ++ [.returned k v])) = _
  rw [List.append_assoc]
  rfl

theorem run_call_error (h : (part.view w.state).find? k = none) {e : ε}
    {compute : Watching σ κ Value ε (Value k)}
    (h' : compute.run (w.miss part pending k) = (.error e, w')) :
    (call part pending k compute).run w = (.error e, w') := by
  let w₁ : Watched σ κ Value := { w with log := w.log ++ [.asked k pending] }
  have hfind : (part.watched.view w₁).find? k = none := h
  have hcompute : compute.run (part.watched.update (fun c => c.recordMiss k) w₁) =
      (.error e, w') := h'
  unfold call
  rw [run_bind_ok (run_note (.asked k pending)), run_bind, run_getOrCompute_miss hfind,
    run_bind_error hcompute]

/-! ### What can happen while values are being computed -/

/-- The second state can come about from the first one while the values of some keys are being
computed: nothing happens, or something happens outside of the cache, or a call ends, after which its
own value is no longer being computed. -/
inductive Leads (part : Part σ κ Value) :
    List κ → Watched σ κ Value → Watched σ κ Value → Prop where
  | done {pending : List κ} {w : Watched σ κ Value} : Leads part pending w w
  | outside {pending : List κ} {w w' : Watched σ κ Value} {s : σ} (h : Leads part pending w w')
      (hview : part.view s = part.view w'.state) : Leads part pending w { w' with state := s }
  | found {pending : List κ} {w w' : Watched σ κ Value} {k : κ} {v : Value k}
      (h : Leads part pending w w') (hfind : (part.view w'.state).find? k = some v) :
      Leads part pending w (w'.hit part pending k v)
  | failed {pending : List κ} {w w₁ w₂ : Watched σ κ Value} {k : κ} (h : Leads part pending w w₁)
      (hfind : (part.view w₁.state).find? k = none)
      (hinner : Leads part (k :: pending) (w₁.miss part pending k) w₂) : Leads part pending w w₂
  | filled {pending : List κ} {w w₁ w₂ : Watched σ κ Value} {k : κ} {v : Value k}
      (h : Leads part pending w w₁) (hfind : (part.view w₁.state).find? k = none)
      (hinner : Leads part (k :: pending) (w₁.miss part pending k) w₂) :
      Leads part pending w (w₂.fill part k v)

theorem Leads.trans {w₁ w₂ w₃ : Watched σ κ Value} (h : Leads part pending w₁ w₂)
    (h' : Leads part pending w₂ w₃) : Leads part pending w₁ w₃ := by
  induction h' with
  | done => exact h
  | outside _ hview ih => exact (ih h).outside hview
  | found _ hfind ih => exact (ih h).found hfind
  | failed _ hfind hinner ih _ => exact .failed (ih h) hfind hinner
  | filled _ hfind hinner ih _ => exact .filled (ih h) hfind hinner

/-- A call does nothing else if its factory does not. -/
theorem leads_call {compute : Watching σ κ Value ε (Value k)}
    (h : ∀ w, Leads part (k :: pending) w (compute.run w).2) (w : Watched σ κ Value) :
    Leads part pending w ((call part pending k compute).run w).2 := by
  cases hfind : (part.view w.state).find? k with
  | some v =>
    rw [run_call_hit hfind]
    exact Leads.done.found hfind
  | none =>
    have hinner := h (w.miss part pending k)
    rcases hcompute : compute.run (w.miss part pending k) with ⟨e | v, w'⟩
    · rw [run_call_error hfind hcompute]
      rw [hcompute] at hinner
      exact .failed .done hfind hinner
    · rw [run_call_ok hfind hcompute]
      rw [hcompute] at hinner
      exact .filled .done hfind hinner

/-- Whatever a factory does, the cache sees calls and nothing else. -/
theorem Factory.leads (f : Factory part ε k) (pending : List κ) (w : Watched σ κ Value) :
    Leads part pending w ((f.run part pending).run w).2 := by
  induction f generalizing pending w with
  | finish result => exact .done
  | proceed change keeps next ih =>
    have hchange : Leads part pending w { w with state := change w.state } :=
      Leads.done.outside (keeps w.state)
    exact hchange.trans (ih _ pending _)
  | ask j inner next ihInner ihNext =>
    have hcall := leads_call (fun w => ihInner (j :: pending) w) w
    exact hcall.trans (ihNext _ pending _)

/-- Notes are only added, and an entry changes only if a factory returned a value for its key. -/
theorem Leads.frame (h : Leads part pending w w') :
    ∃ events, w'.log = w.log ++ events ∧
      ∀ j, (∀ v, .computed j v ∉ events) →
        (part.view w'.state).find? j = (part.view w.state).find? j := by
  induction h with
  | done => exact ⟨[], (List.append_nil _).symm, fun _ _ => rfl⟩
  | outside _ hview ih =>
    obtain ⟨events, hlog, hkept⟩ := ih
    refine ⟨events, hlog, fun j hj => ?_⟩
    rw [hview]
    exact hkept j hj
  | @found pending _ _ k v _ _ ih =>
    obtain ⟨events, hlog, hkept⟩ := ih
    refine ⟨events ++ [.asked k pending, .returned k v], ?_, fun j hj => ?_⟩
    · rw [Watched.hit, hlog, List.append_assoc]
    · rw [view_hit]
      exact hkept j (fun v hv => hj v (List.mem_append_left _ hv))
  | @failed pending _ _ _ k _ _ _ ih ihInner =>
    obtain ⟨events, hlog, hkept⟩ := ih
    obtain ⟨inner, hinner, hkept'⟩ := ihInner
    refine ⟨events ++ .asked k pending :: inner, ?_, fun j hj => ?_⟩
    · rw [hinner, Watched.miss, hlog, List.append_assoc, List.append_assoc]
      rfl
    · rw [hkept' j (fun v hv => hj v (List.mem_append_right _ (List.mem_cons_of_mem _ hv))),
        view_miss]
      exact hkept j (fun v hv => hj v (List.mem_append_left _ hv))
  | @filled pending _ _ _ k v _ _ _ ih ihInner =>
    obtain ⟨events, hlog, hkept⟩ := ih
    obtain ⟨inner, hinner, hkept'⟩ := ihInner
    refine ⟨events ++ .asked k pending :: inner ++ [.computed k v, .returned k v], ?_,
      fun j hj => ?_⟩
    · rw [Watched.fill, hinner, Watched.miss, hlog]
      simp only [List.append_assoc, List.cons_append, List.nil_append]
    · simp only [List.mem_append, List.mem_cons, not_or] at hj
      have hne : k ≠ j := by
        rintro rfl
        exact (hj v).2.1 rfl
      rw [view_fill, find?_store_of_ne _ hne, hkept' j (fun v hv => (hj v).1.2.2 hv), view_miss]
      exact hkept j (fun v hv => (hj v).1.1 hv)

theorem Leads.log_isPrefix (h : Leads part pending w w') : w.log <+: w'.log := by
  obtain ⟨events, hlog, -⟩ := h.frame
  exact ⟨events, hlog.symm⟩

/-! ### Histories -/

/-- What may be asked of a cache from outside. -/
inductive Request (part : Part σ κ Value) (ε : Type) where
  | ask (k : κ) (factory : Factory part ε k)
  | clear

/-- A request is served. After a call that raises an exception things go on; clearing begins a new
log. -/
def Request.serve (w : Watched σ κ Value) : Request part ε → Watched σ κ Value
  | ask k factory => ((call part [] k (factory.run part [k])).run w).2
  | clear => { state := part.update (fun _ => {}) w.state }

/-- The state after some requests, beginning with an empty cache, and the notes since the cache was
last cleared. -/
def Part.after (part : Part σ κ Value) (s : σ) (requests : List (Request part ε)) :
    Watched σ κ Value :=
  requests.foldl Request.serve { state := part.update (fun _ => {}) s }

end Cache

end FieldTrace
