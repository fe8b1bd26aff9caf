import DebugHost.Proofs.Process.Progress

/-! # One place, exact exits

However starts, stops and the watchers of all runs come between each other, one run has the place at a
time, a start is refused as long as it is taken, and a stop comes to the exit of its own run
(`onePlace`). This puts together what the modules before say about the place (`Placed`), about calls
(`Fits`, `ends`) and about who stops whom (`Meant`). -/

namespace DebugHost.Supervision

variable {x y : Supervision} {id : RunId} {r r' : Run} {e : Exit}

/-! ### Starts -/

theorem Placed.current? (h : Placed x) (hp : x.supervisor.place = some id) :
    ∃ r, x.supervisor.find? id = some r ∧ x.supervisor.current? = some r := by
  obtain ⟨r, hr⟩ := Option.ne_none_iff_exists'.mp (find?_isSome_iff.mpr (h.known hp))
  refine ⟨r, hr, ?_⟩
  unfold Supervisor.current?
  rw [hp, Option.bind_some, hr]

/-- While a run has the place, every start is refused, naming that run. -/
theorem Placed.start_taken (h : Placed x) (hp : x.supervisor.place = some id) :
    ∃ r, x.supervisor.find? id = some r ∧ ∀ c spawned, x.supervisor.start c spawned =
      (.error (.alreadyRunning id (some r.process)), x.supervisor, []) := by
  obtain ⟨r, hr, hcurrent⟩ := h.current? hp
  refine ⟨r, hr, fun c spawned => ?_⟩
  rw [← id_of_find? hr]
  unfold Supervisor.start
  rw [hcurrent]

theorem start_failed {s : Supervisor} {c : Command} {spawned : Except OsError Nat} {error : RunError}
    (h : (s.start c spawned).1 = .error error) : (s.start c spawned).2.1 = s := by
  unfold Supervisor.start at h ⊢
  split
  · rfl
  · rfl
  · next hspawned =>
    rw [hspawned] at h
    cases h

/-- What comes of a start when nothing has the place. -/
theorem start_free {s : Supervisor} (hp : s.place = none) (c : Command) :
    (∀ error, (s.start c (.error error)).1 = .error (.spawn c.text error.message)) ∧
      ∀ process, (s.start c (.ok process)).1 = .ok ⟨s.next⟩ ∧
        (s.start c (.ok process)).2.1 = enroll s c process := by
  have hcurrent : s.current? = none := by
    unfold Supervisor.current?
    rw [hp]
    rfl
  unfold Supervisor.start
  rw [hcurrent]
  exact ⟨fun _ => rfl, fun _ => ⟨rfl, rfl⟩⟩

/-- The number of a run that is started is larger than those of all runs before. -/
theorem Placed.numbered (h : Placed x) {c : Command} {spawned : Except OsError Nat}
    (hs : (x.supervisor.start c spawned).1 = .ok id) {j : RunId} (hj : x.released? j ≠ none) :
    j.number < id.number := by
  have hnumber : id = ⟨x.supervisor.next⟩ := by
    unfold Supervisor.start at hs
    split at hs
    · cases hs
    · cases hs
    · exact (Except.ok.inj hs).symm
  rw [hnumber]
  exact ((h.numbers j).mp hj).2

/-! ### Stops -/

/-- The exit that a call has reported for a run. -/
def Call.reports? : Call → Option (RunId × Exit)
  | .ended id (some e) | .gaveUp id (some e) => some (id, e)
  | _ => none

theorem Fits.reports {c : Call} (h : Fits x c) (hc : c.reports? = some (id, e)) :
    x.exit? id = some e := by
  cases c with
  | ended j result =>
    cases result with
    | none => cases hc
    | some e' =>
      cases hc
      rcases h.exact with he | ⟨he, -⟩
      · exact he.symm
      · cases he
  | gaveUp j result =>
    cases result with
    | none => cases hc
    | some e' =>
      cases hc
      exact h
  | _ => cases hc

/-- A step of a call changes no run but that of the call. -/
theorem Steps.find? {c c' : Call} {s : Supervisor} (hs : Steps x c c' s) (hc : c.run? ≠ some id) :
    s.find? id = x.supervisor.find? id := by
  cases hs with
  | @cancels j =>
    rw [find?_cancel, if_neg]
    rintro rfl
    exact hc rfl
  | _ => rfl

theorem find?_step {me : Nat} (h : ∀ c, x.calls me = some c → c.run? ≠ some id) :
    (x.move (.step me)).supervisor.find? id = x.supervisor.find? id := by
  show (x.advance me).supervisor.find? id = _
  unfold advance
  split
  · rfl
  · next c hc => exact (steps_step x c).find? (h c hc)

/-- Only a call that has found its run in the place asks for its stop. -/
theorem Alters.cancels (ha : Alters x y id r r') (hr : r.stopAsked = false) (hr' : r'.stopAsked = true) :
    ∃ me, x.calls me = some (.found id) := by
  cases ha with
  | same hu => cases hr.symm.trans hr'
  | attends ha hu => cases (ha.stopAsked.trans hr).symm.trans hr'
  | cancelled hme hu => exact ⟨_, hme⟩
  | fed chunk ho => cases ((stopAsked_feed r _ chunk).trans hr).symm.trans hr'
  | finished ho => cases ((stopAsked_finish r _).trans hr).symm.trans hr'

theorem exit?_of_recorded? {w : Watch} (h : w.recorded? = some e) : w.exit? = some e := by
  cases w with
  | recorded e => exact h
  | released e => exact h
  | told e => exact h
  | «over» e => exact h
  | _ => cases h

/-! ### All together -/

/-- What a supervisor makes of its place and of the exits of its runs. -/
structure OnePlace (grace : Duration) (σ : Nat → Move) : Prop where
  /-- The run in the place is the one that was started and has not freed it. -/
  held : ∀ n id, (after grace σ n).supervisor.place = some id ↔
    (after grace σ n).released? id = some false
  /-- While a run has the place, every start is refused, naming that run, and changes nothing. -/
  refused : ∀ n id, (after grace σ n).supervisor.place = some id →
    ∃ r, (after grace σ n).supervisor.find? id = some r ∧ ∀ c spawned,
      (after grace σ n).supervisor.start c spawned =
        (.error (.alreadyRunning id (some r.process)), (after grace σ n).supervisor, [])
  /-- A start that fails changes nothing. -/
  failed : ∀ n c spawned error, ((after grace σ n).supervisor.start c spawned).1 = .error error →
    ((after grace σ n).supervisor.start c spawned).2.1 = (after grace σ n).supervisor
  /-- When nothing has the place, a start fails only if the system refuses it, and otherwise its run has
  the place. -/
  started : ∀ n c, (after grace σ n).supervisor.place = none →
    (∀ error, ((after grace σ n).supervisor.start c (.error error)).1 =
      .error (.spawn c.text error.message)) ∧
    ∀ process, ∃ id, ((after grace σ n).supervisor.start c (.ok process)).1 = .ok id ∧
      ((after grace σ n).supervisor.start c (.ok process)).2.1.place = some id
  /-- The numbers of runs increase. -/
  numbered : ∀ n c spawned id j, ((after grace σ n).supervisor.start c spawned).1 = .ok id →
    (after grace σ n).released? j ≠ none → j.number < id.number
  /-- A run that was started has the place, or its exit is the last one, or a run that was started later
  has finished. -/
  finished : ∀ n id, (after grace σ n).released? id ≠ none →
    (after grace σ n).supervisor.place = some id ∨ ∃ e, (after grace σ n).exit? id = some e ∧
      ((after grace σ n).supervisor.lastExit = some (id, e) ∨ (after grace σ n).FinishedAfter id)
  /-- The exit of a run never changes once it is recorded. -/
  kept : ∀ n m id e, n ≤ m → (after grace σ n).exit? id = some e → (after grace σ m).exit? id = some e
  /-- A call that stops a run comes to the exit of that run, or to nothing if a later run has
  finished. The run has left the place by then. -/
  exact : ∀ n me id result, (after grace σ n).calls me = some (.ended id result) →
    (after grace σ n).supervisor.place ≠ some id ∧ ∃ e, (after grace σ n).exit? id = some e ∧
      (result = some e ∨ result = none ∧ (after grace σ n).FinishedAfter id)
  /-- Calls that report an exit of the same run report the same one. -/
  agree : ∀ n m me me' c c' id e e', (after grace σ n).calls me = some c → c.reports? = some (id, e) →
    (after grace σ m).calls me' = some c' → c'.reports? = some (id, e') → e = e'
  /-- A call changes no run but its own. -/
  apart : ∀ n me id, σ n = .step me → (∀ c, (after grace σ n).calls me = some c → c.run? ≠ some id) →
    (after grace σ (n + 1)).supervisor.find? id = (after grace σ n).supervisor.find? id
  /-- A run is asked to stop only for a call that has found it in the place. -/
  cancelled : ∀ n id r r', (after grace σ n).supervisor.find? id = some r → r.stopAsked = false →
    (after grace σ (n + 1)).supervisor.find? id = some r' → r'.stopAsked = true →
    ∃ me, (after grace σ n).calls me = some (.found id)
  /-- The cause of an exit is that the run was stopped only if a call was made that stops it. -/
  meant : ∀ n id e, (after grace σ n).exit? id = some e → e.cause = .stopped → (after grace σ n).IsMeant id
  /-- Every call comes to its result, if nobody's turn is put off for ever and its time does not run
  out. -/
  returns : Fair grace σ → ∀ n me c, (∀ k, σ k ≠ .expire me) → (after grace σ n).calls me = some c →
    ∃ m ≥ n, ∃ c', (after grace σ m).calls me = some c' ∧ c'.isOver = true ∧
      ∀ id, c.run? = some id → c'.run? = some id

/-- **One place, exact exits**, in every order of starts, stops and all that watchers do. -/
theorem onePlace (grace : Duration) (σ : Nat → Move) : OnePlace grace σ where
  held n := (placed_after grace σ n).held
  refused n id hp := (placed_after grace σ n).start_taken hp
  failed n c spawned error h := start_failed h
  started n c hp := by
    obtain ⟨herror, hok⟩ := start_free hp c
    refine ⟨herror, fun process => ?_⟩
    obtain ⟨hresult, hsupervisor⟩ := hok process
    exact ⟨_, hresult, by rw [hsupervisor]; rfl⟩
  numbered n c spawned id j hs hj := (placed_after grace σ n).numbered hs hj
  finished n id hid := by
    have hp := placed_after grace σ n
    cases hr : (after grace σ n).released? id with
    | none => exact absurd hr hid
    | some b =>
      cases b with
      | false => exact Or.inl ((hp.held id).mpr hr)
      | true =>
        obtain ⟨e, he⟩ := Option.ne_none_iff_exists'.mp (hp.unreleased id hr)
        exact Or.inr ⟨e, he, hp.last id e he⟩
  kept n m id e hnm he := exit?_stays hnm he
  exact n me id result hme := by
    have h : Results _ id result := fits_after grace σ n me _ hme
    obtain ⟨e, he⟩ := Option.ne_none_iff_exists'.mp h.recorded
    exact ⟨(placed_after grace σ n).not_held h.released, e, he,
      h.exact.imp_left fun hr => hr.trans he⟩
  agree n m me me' c c' id e e' hc he hc' he' := by
    -- both exits are the one that is recorded at the later time
    have hn := (fits_after grace σ n me c hc).reports he
    have hm := (fits_after grace σ m me' c' hc').reports he'
    have hlater := exit?_stays (Nat.le_max_left n m) hn
    have hlater' := exit?_stays (Nat.le_max_right n m) hm
    exact Option.some.inj (hlater.symm.trans hlater')
  apart n me id hσ h := by
    rw [after_succ, hσ]
    exact find?_step h
  cancelled n id r r' hr hstop hr' hstop' := by
    obtain ⟨q, hq, ha⟩ := (change_after grace σ n).alters hr
    cases hq.symm.trans hr'
    exact ha.cancels hstop hstop'
  meant n id e he hcause := by
    obtain ⟨r, hr, hrecorded⟩ := exists_of_exit he
    have hmeant := meant_after grace σ n hr
    exact hmeant.asked (hmeant.stopped e (exit?_of_recorded? hrecorded) hcause)
  returns hfair n me c hσ hme := ends hfair (inTime_after hσ) hme

/-- A first stop of a run that waits for its exit. A second one finds that the run has left the place, and
looks for its exit only when a second run has finished. The second run is not stopped by this. -/
def twoStops : List Move :=
  [.start listing (.ok 4), .stop 0 ⟨1⟩, .step 0, .step 0, .step 0, .watch ⟨1⟩ none,
    .start listing (.ok 5)] ++ teardown ⟨1⟩ ++
    [.step 0, .stop 1 ⟨1⟩, .start listing (.ok 5), .step 1] ++ teardown ⟨2⟩ ++ [.step 1]

example : let x := twoStops.foldl move (new ⟨100⟩)
    x.calls 0 = some (.ended ⟨1⟩ (some ⟨some 0, .stopped⟩)) ∧ x.calls 1 = some (.ended ⟨1⟩ none) ∧
      x.exit? ⟨2⟩ = some ⟨some 0, .exited⟩ ∧ x.supervisor.next = 3 ∧ x.supervisor.place = none := by
  decide +kernel

end DebugHost.Supervision
