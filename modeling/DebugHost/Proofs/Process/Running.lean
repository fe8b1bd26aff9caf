import DebugHost.Process.Runner
import DebugHost.Proofs.Process.Progress

/-! # What a runner does is such an order

A runner works on its supervisor by whole operations: it lets a reader read or a watcher do what is due,
moves the clock, starts a command, and stops a run by asking for it and going on until there is an
answer. Each of these is a sequence of moves, whatever the system does meanwhile, so that what holds after
every schedule holds of the supervisor of a runner (`schedule_of_used`). The number of a process that is
started has to be a new one. -/

namespace DebugHost.Supervision

open DebugHost.Shell

variable {x y : Supervision} {r r' : Runner} {id : RunId} {t : Stream} {me : Nat}

/-- Moves lead to a supervision whose supervisor is the one of a runner, and no call has gone on. -/
def Reaches (x : Supervision) (r : Runner) : Prop :=
  ∃ y, Leads move x y ∧ y.supervisor = r.supervisor ∧ y.calls = x.calls

theorem Reaches.refl (h : x.supervisor = r.supervisor) : Reaches x r := ⟨x, .refl, h, rfl⟩

/-- A move that is not made by a call comes before what is reached, -/
theorem Reaches.after {m : Move} (hm : m.isCall = false) (h : Reaches (x.move m) r) : Reaches x r := by
  obtain ⟨y, hy, hsupervisor, hcalls⟩ := h
  exact ⟨y, (Leads.one x m).trans hy, hsupervisor, hcalls.trans (calls_move x hm)⟩

/-- or reaches it. -/
theorem Reaches.move {m : Move} (hm : m.isCall = false) (h : (x.move m).supervisor = r.supervisor) :
    Reaches x r := .after hm (.refl h)

/-! ### What goes on by itself -/

/-- **Reading is a move.** -/
theorem reaches_read (h : x.supervisor = r.supervisor) (hr : r.read id t = some r') : Reaches x r' := by
  unfold Runner.read at hr
  obtain ⟨run, hrun, hr⟩ := Option.bind_eq_some_iff.mp hr
  obtain ⟨pipe, hpipe, hr⟩ := Option.bind_eq_some_iff.mp hr
  split at hr
  · cases hr
  · next ho =>
    have hreading : x.isReading id t = true := by
      unfold isReading
      rw [h, hrun]
      simpa using ho
    simp only at hr
    split at hr
    · cases hr
      refine .move (m := .read id t (r.system.drain pipe).1) rfl ?_
      show (x.read id t _).supervisor = _
      unfold Supervision.read
      rw [if_pos hreading, h]
    · split at hr
      · cases hr
        refine .move (m := .finish id t) rfl ?_
        show (x.finish id t).supervisor = _
        unfold Supervision.finish
        rw [if_pos hreading, h]
      · cases hr

/-- **What a watcher does is a move**, after the clock was set. -/
theorem reaches_watch (h : x.supervisor = r.supervisor) (hr : r.watch id = some r') : Reaches x r' := by
  unfold Runner.watch at hr
  obtain ⟨run, hrun, hr⟩ := Option.bind_eq_some_iff.mp hr
  obtain ⟨m, hm, hr⟩ := Option.bind_eq_some_iff.mp hr
  cases hr
  refine .after (m := .clock r.system.now) rfl
    (.move (m := .watch id (r.system.status? run.process)) rfl ?_)
  show (Supervision.watch { x with now := r.system.now } id _).supervisor = _
  unfold Supervision.watch
  have hdue : (x.supervisor.find? id).bind (·.due? r.system.now (r.system.status? run.process)) =
      some m := by
    rw [h, hrun]
    exact hm
  simp only [hdue]
  rw [h]
  rfl

theorem reaches_attend (h : x.supervisor = r.supervisor) (hr : r.attend id = some r') :
    Reaches x r' := by
  unfold Runner.attend at hr
  cases hout : r.read id .out with
  | some q =>
    rw [hout] at hr
    cases hr
    exact reaches_read h hout
  | none =>
    rw [hout] at hr
    cases herr : r.read id .err with
    | some q =>
      simp only [Option.orElse, herr] at hr
      cases hr
      exact reaches_read h herr
    | none =>
      simp only [Option.orElse, herr] at hr
      exact reaches_watch h hr

/-- **The next thing that can be done is a sequence of moves.** -/
theorem reaches_step (h : x.supervisor = r.supervisor) {limit : Option Nat}
    (hr : r.step limit = some r') : Reaches x r' := by
  unfold Runner.step at hr
  split at hr
  · next q hq =>
    cases hr
    obtain ⟨id, -, hattend⟩ := List.exists_of_findSome?_eq_some hq
    exact reaches_attend h hattend
  · split at hr
    · cases hr
      refine .refl (h.trans ?_)
      simp only
      split <;> rfl
    · obtain ⟨now, -, rfl⟩ := Option.map_eq_some_iff.mp hr
      exact .refl h

/-- **Going on until there is an answer is a sequence of moves.** -/
theorem reaches_await {α : Type} (answer? : Runner → Option α) (limit : Option Nat) (fuel : Nat)
    (h : x.supervisor = r.supervisor) : Reaches x (r.await answer? limit fuel).2 := by
  induction fuel generalizing x r with
  | zero => exact .refl h
  | succ fuel ih =>
    unfold Runner.await
    split
    · exact .refl h
    · split
      · exact .refl h
      · split
        · next q hq =>
          obtain ⟨y, hy, hsupervisor, hcalls⟩ := reaches_step h hq
          obtain ⟨z, hz, hzsupervisor, hzcalls⟩ := ih hsupervisor
          exact ⟨z, hy.trans hz, hzsupervisor, hzcalls.trans hcalls⟩
        · exact .refl h

/-- The answer that is waited for is one that the runner has come to. -/
theorem await_answer {α : Type} {answer? : Runner → Option α} {limit : Option Nat} {fuel : Nat} {a : α}
    (h : (r.await answer? limit fuel).1 = some a) : answer? (r.await answer? limit fuel).2 = some a := by
  induction fuel generalizing r with
  | zero => cases h
  | succ fuel ih =>
    unfold Runner.await at h ⊢
    split at h
    · next b hb =>
      cases h
      exact hb
    · split at h
      · cases h
      · next hlimit =>
        rw [if_neg hlimit]
        split at h
        · exact ih h
        · cases h

/-! ### Calls -/

/-- What a runner starts, its supervisor starts. -/
theorem supervisor_start (r : Runner) (request : RunRequest) :
    ∃ c, (r.start request).1 =
        (r.supervisor.start c ((r.system.spawn r.cwd c .shell true).map fun (p, _) => p)).1 ∧
      (r.start request).2.supervisor =
        (r.supervisor.start c ((r.system.spawn r.cwd c .shell true).map fun (p, _) => p)).2.1 := by
  refine ⟨r.interpreter.commandFor r.system.files r.cwd request, ?_⟩
  unfold Runner.start
  simp only
  split
  · next hs =>
    rw [hs]
    exact ⟨rfl, rfl⟩
  · exact ⟨rfl, rfl⟩

/-- **A start is a move**, where the number of the process is free. -/
theorem reaches_start (h : x.supervisor = r.supervisor) {request : RunRequest}
    (hfree : ∀ c p, (r.system.spawn r.cwd c .shell true).map (fun (p, _) => p) = .ok p →
      x.isFree p = true) : Reaches x (r.start request).2 := by
  obtain ⟨c, -, hc⟩ := supervisor_start r request
  have hmay : x.mayAnswer ((r.system.spawn r.cwd c .shell true).map fun (p, _) => p) = true := by
    cases hs : (r.system.spawn r.cwd c .shell true).map fun (p, _) => p with
    | error e => rfl
    | ok p => exact hfree c p hs
  refine .move (m := .start c ((r.system.spawn r.cwd c .shell true).map fun (p, _) => p)) rfl ?_
  show (if x.mayAnswer _ = true then x.start c _ else x).supervisor = _
  rw [if_pos hmay, hc, ← h]
  rfl

/-- How far a call has come that gives a result: it has come to it, in time or not, or it still waits. -/
inductive Gives (id : RunId) : Option Exit → Call → Prop where
  | ended (exit : Option Exit) : Gives id exit (.ended id exit)
  | gaveUp (exit : Option Exit) : Gives id exit (.gaveUp id exit)
  | waits (deadline : Nat) : Gives id none (.waiting id deadline)

/-- A step of a call. -/
theorem leads_step {c c' : Call} {s : Supervisor} (hme : x.calls me = some c)
    (hs : x.step c = (c', s)) : Leads move x (x.put me c' s) := by
  have h : Leads move x (x.advance me) := .one x (Move.step me)
  unfold advance at h
  rw [hme] at h
  simp only [hs] at h
  exact h

theorem leads_begin (hme : x.calls me = none) (hid : (x.supervisor.find? id).isSome = true) :
    Leads move x (x.put me (.asked id) x.supervisor) := by
  have h : Leads move x (if (x.supervisor.find? id).isSome then x.begin me (.asked id) else x) :=
    .one x (Move.stop me id)
  unfold begin at h
  rw [if_pos hid, hme] at h
  exact h

theorem put_mine (x : Supervision) (me : Nat) (c : Call) (s : Supervisor) :
    (x.put me c s).calls me = some c := Function.update_self ..

/-- A call that waits looks whether there is an answer: it comes to the result that
`Supervisor.stopAnswer?` gives. -/
theorem leads_answer {now deadline : Nat} {exit : Option Exit} {records : List Log.Record}
    (hme : x.calls me = some (.waiting id deadline))
    (hanswer : x.supervisor.stopAnswer? id (deadline ≤ now) = some (exit, records)) :
    ∃ y c, Leads move x y ∧ y.supervisor = x.supervisor ∧ y.calls me = some c ∧ Gives id exit c := by
  unfold Supervisor.stopAnswer? at hanswer
  split at hanswer
  · next e he =>
    cases hanswer
    have hs : x.step (.waiting id deadline) = (.ended id (some e), x.supervisor) := by
      simp only [step, he]
    exact ⟨_, _, leads_step hme hs, rfl, put_mine .., .ended _⟩
  · next he =>
    split at hanswer
    · next hlate =>
      cases hanswer
      have hclock : Leads move x { x with now } := .one x (Move.clock now)
      have hexpire : Leads move { x with now }
          (Supervision.put { x with now } me (.expired id) x.supervisor) := by
        have h : Leads move { x with now } (Supervision.expire { x with now } me) :=
          .one _ (Move.expire me)
        unfold expire at h
        simp only [hme] at h
        rwa [if_pos ⟨of_decide_eq_true hlate, he⟩] at h
      exact ⟨_, _, (hclock.trans hexpire).trans (leads_step (put_mine ..) rfl), rfl, put_mine ..,
        .gaveUp _⟩
    · cases hanswer

/-- A call whose run is in the place lets the watcher know, and begins to wait. -/
theorem leads_wait (now : Nat) (hme : x.calls me = some (.asked id)) (hp : x.supervisor.place = some id) :
    ∃ y, Leads move x y ∧ y.supervisor = x.supervisor.cancel id ∧
      y.calls me = some (.waiting id (now + x.supervisor.stopBound)) := by
  have hfound : Leads move x (x.put me (.found id) x.supervisor) :=
    leads_step hme (by simp only [step, if_pos hp])
  have hstopping := hfound.trans (leads_step (put_mine ..) rfl)
  have hclock := hstopping.tail (Move.clock now)
  have hme' : (((x.put me (.found id) x.supervisor).put me (.stopping id)
      (x.supervisor.cancel id)).move (Move.clock now)).calls me = some (.stopping id) :=
    put_mine _ me _ (x.supervisor.cancel id)
  exact ⟨_, hclock.trans (leads_step hme' rfl), rfl, put_mine ..⟩

/-- A call whose run is not in the place comes to what is recorded. -/
theorem leads_missed (hme : x.calls me = some (.asked id)) (hp : x.supervisor.place ≠ some id) :
    ∃ y, Leads move x y ∧ y.supervisor = x.supervisor ∧
      y.calls me = some (.ended id (x.supervisor.recordedExit id)) := by
  have hmissed : Leads move x (x.put me (.missed id) x.supervisor) :=
    leads_step hme (by simp only [step, if_neg hp])
  exact ⟨_, hmissed.trans (leads_step (put_mine ..) rfl), rfl, put_mine ..⟩

/-- **A stop is a sequence of moves** of a call that is to stop a run: it comes to the result that the stop
gives. -/
theorem leads_asked (h : x.supervisor = r.supervisor) (hme : x.calls me = some (.asked id)) :
    ∃ y c, Leads move x y ∧ y.supervisor = (r.stop id).2.supervisor ∧ y.calls me = some c ∧
      Gives id (r.stop id).1 c := by
  unfold Runner.stop Supervisor.askStop
  by_cases hp : r.supervisor.place = some id
  · simp only [if_pos hp]
    obtain ⟨y, hy, hcancel, hwaits⟩ := leads_wait r.system.now hme (h ▸ hp)
    generalize hq : ({ r with supervisor := r.supervisor.cancel id } : Runner).logs _ = q
    have hcancelled : y.supervisor = q.supervisor := by
      rw [hcancel, ← hq]
      exact congrArg (·.cancel id) h
    have hnow : q.system.now = r.system.now := by rw [← hq]; rfl
    have hbound : q.supervisor.stopBound = r.supervisor.stopBound := by rw [← hq]; rfl
    rw [hnow, hbound]
    obtain ⟨z, hz, hsupervisor, hcalls⟩ := reaches_await
      (fun q => q.supervisor.stopAnswer? id (r.system.now + r.supervisor.stopBound ≤ q.system.now))
      (some (r.system.now + r.supervisor.stopBound)) Runner.patience hcancelled
    have hreached := hy.trans hz
    have hwaiting : z.calls me = some (.waiting id (r.system.now + r.supervisor.stopBound)) := by
      rw [hcalls, hwaits, ← h]
    split
    · next exit records q' hanswer =>
      have hstop := await_answer (congrArg Prod.fst hanswer)
      rw [hanswer] at hstop hsupervisor
      obtain ⟨w, c, hw, hwsupervisor, hc, hgives⟩ := leads_answer hwaiting (hsupervisor ▸ hstop)
      exact ⟨w, c, hreached.trans hw, hwsupervisor.trans hsupervisor, hc, hgives⟩
    · next q' hanswer =>
      rw [hanswer] at hsupervisor
      exact ⟨z, _, hreached, hsupervisor, hwaiting, .waits _⟩
  · simp only [if_neg hp]
    obtain ⟨y, hy, hsame, hended⟩ := leads_missed hme (h ▸ hp)
    refine ⟨y, _, hy, hsame.trans h, hended, ?_⟩
    rw [h]
    exact .ended _

/-- The call for a stop may be made on the spot, under a name that is not taken. -/
theorem leads_stop (h : x.supervisor = r.supervisor) (hme : x.calls me = none)
    (hid : (x.supervisor.find? id).isSome = true) :
    ∃ y c, Leads move x y ∧ y.supervisor = (r.stop id).2.supervisor ∧ y.calls me = some c ∧
      Gives id (r.stop id).1 c := by
  have hasked : (x.put me (.asked id) x.supervisor).supervisor = r.supervisor := h
  obtain ⟨y, c, hy, hrest⟩ := leads_asked hasked (put_mine ..)
  exact ⟨y, c, (leads_begin hme hid).trans hy, hrest⟩

/-! ### A runner in use -/

/-- A runner that came about from another one: it was waited for something, programs were started under
numbers that no process of a run had had, runs were stopped, and what is not the supervisor changed. -/
inductive Used (r₀ : Runner) : Runner → Prop where
  | new : Used r₀ r₀
  | awaited {r : Runner} {α : Type} (answer? : Runner → Option α) (limit : Option Nat) (fuel : Nat)
    (h : Used r₀ r) : Used r₀ (r.await answer? limit fuel).2
  | started {r : Runner} (request : RunRequest) (h : Used r₀ r)
    (hfresh : ∀ c p, (r.system.spawn r.cwd c .shell true).map (fun (p, _) => p) = .ok p →
      ∀ q ∈ r.supervisor.runs, q.process ≠ p) : Used r₀ (r.start request).2
  | stopped {r : Runner} (id : RunId) (h : Used r₀ r) : Used r₀ (r.stop id).2
  | beside {r r' : Runner} (h : Used r₀ r) (hs : r'.supervisor = r.supervisor) : Used r₀ r'

/-- A stop of a run that is not in the place changes nothing. -/
theorem stop_missed (hp : r.supervisor.place ≠ some id) : (r.stop id).2.supervisor = r.supervisor := by
  unfold Runner.stop Supervisor.askStop
  simp only [if_neg hp]
  rfl

/-- After a change that puts a call under the name `me` there is a name for another call, -/
theorem exists_name_put {n : Nat} (h : ∀ i ≥ n, x.calls i = none) (me : Nat) (c : Call)
    (s : Supervisor) :
    ∃ m, ∀ i ≥ m, (x.put me c s).calls i = none := by
  refine ⟨max n (me + 1), fun i hi => ?_⟩
  rw [put_calls, if_neg (by omega)]
  exact h i (by omega)

/-- and so after every sequence of moves. -/
theorem exists_name {grace : Duration} (h : Leads move (new grace) x) :
    ∃ n, ∀ i ≥ n, x.calls i = none := by
  induction h with
  | refl => exact ⟨0, fun _ _ => rfl⟩
  | @tail y m _ ih =>
    obtain ⟨n, hn⟩ := ih
    have hc := change_move y m
    generalize y.move m = z at hc
    cases hc with
    | begins me hme hc hnew => exact exists_name_put hn me ..
    | steps me hme hs => exact exists_name_put hn me ..
    | expires me hme hd ht => exact exists_name_put hn me ..
    | _ => exact ⟨n, hn⟩

/-- **A sequence of moves leads to the supervisor of every runner in use.** -/
theorem leads_used {r₀ : Runner} {grace : Duration} (h₀ : r₀.supervisor = { grace }) (h : Used r₀ r) :
    ∃ x, Leads move (new grace) x ∧ x.supervisor = r.supervisor := by
  induction h with
  | new => exact ⟨_, .refl, h₀.symm⟩
  | awaited answer? limit fuel _ ih =>
    obtain ⟨x, hx, hsupervisor⟩ := ih
    obtain ⟨y, hy, hreached, -⟩ := reaches_await answer? limit fuel hsupervisor
    exact ⟨y, hx.trans hy, hreached⟩
  | started request _ hfresh ih =>
    obtain ⟨x, hx, hsupervisor⟩ := ih
    have hfree : ∀ p, (∀ q ∈ x.supervisor.runs, q.process ≠ p) → x.isFree p = true := fun p hp =>
      List.all_eq_true.mpr fun q hq => by simp [hp q hq]
    obtain ⟨y, hy, hreached, -⟩ := reaches_start hsupervisor fun c p hp =>
      hfree p (hsupervisor ▸ hfresh c p hp)
    exact ⟨y, hx.trans hy, hreached⟩
  | @stopped r id _ ih =>
    obtain ⟨x, hx, hsupervisor⟩ := ih
    by_cases hid : (x.supervisor.find? id).isSome = true
    · obtain ⟨n, hn⟩ := exists_name hx
      obtain ⟨y, c, hy, hstopped, -⟩ := leads_stop hsupervisor (hn n (Nat.le_refl n)) hid
      exact ⟨y, hx.trans hy, hstopped⟩
    · -- a run that was never started is not in the place
      obtain ⟨σ, n, rfl⟩ := hx.schedule (Move.clock 0)
      have hp : r.supervisor.place ≠ some id := fun hp => by
        have hheld := ((placed_after grace σ n).held id).mp (hsupervisor ▸ hp)
        exact hid (Option.isSome_iff_ne_none.mpr (find?_isSome_iff.mpr fun hnone =>
          nomatch hheld.symm.trans hnone))
      exact ⟨_, hx, hsupervisor.trans (stop_missed hp).symm⟩
  | beside _ hs ih =>
    obtain ⟨x, hx, hsupervisor⟩ := ih
    exact ⟨x, hx, hsupervisor.trans hs.symm⟩

/-- **What holds after every schedule holds of the supervisor of every runner in use.** -/
theorem schedule_of_used {r₀ : Runner} {grace : Duration} (h₀ : r₀.supervisor = { grace })
    (h : Used r₀ r) : ∃ σ n, (after grace σ n).supervisor = r.supervisor := by
  obtain ⟨x, hx, hsupervisor⟩ := leads_used h₀ h
  obtain ⟨σ, n, rfl⟩ := hx.schedule (Move.clock 0)
  exact ⟨σ, n, hsupervisor⟩

end DebugHost.Supervision
