import DebugHost.Proofs.Launch.Failing
import DebugHost.Proofs.Process.Running

/-! # What a runner does to launch is such an order

`Launch.start` works on a runner by whole operations: it asks for the adapter, starts the program, tries to
connect and sleeps in between, and stops the program when it fails. Each of these is a sequence of moves of one
launch, with what others do meanwhile between them, so that what is known of failed launches
(`failed_launch`) is known of it (`launch_order`). -/

namespace DebugHost.Launching

open DebugHost.Launch DebugHost.Supervision

variable {x y : Launching} {r r' : Runner} {me call : Nat} {stage stage' : Stage} {id : RunId} {s : Step}

/-- Moves lead to a launch at a stage, with the supervisor of a runner. Neither the session nor a call has
changed since. -/
structure Comes (x : Launching) (me : Nat) (stage : Stage) (r : Runner) (y : Launching) : Prop where
  leads : Leads move x y
  supervisor : y.supervision.supervisor = r.supervisor
  config : y.config = x.config
  session : y.session = x.session
  calls : y.supervision.calls = x.supervision.calls
  launch : y.launches me = some stage

/-- What is not the supervisor of a runner may change. -/
theorem Comes.beside (h : Comes x me stage r y) (hr : r'.supervisor = r.supervisor) : Comes x me stage r' y :=
  { h with supervisor := h.supervisor.trans hr.symm }

/-! ### What goes on around a launch -/

/-- Moves of the supervisor are moves around all launches. -/
theorem leads_around (x : Launching) {z : Supervision} (h : Leads Supervision.move x.supervision z) :
    Leads move x { x with supervision := z } := by
  induction h with
  | refl => exact .refl
  | tail m _ ih => exact ih.tail (.around m)

theorem Comes.around (h : Comes x me stage r y) (hr : Reaches y.supervision r') :
    ∃ z, Comes x me stage r' z := by
  obtain ⟨z, hz, hsupervisor, hcalls⟩ := hr
  exact ⟨{ y with supervision := z }, h.leads.trans (leads_around y hz), hsupervisor, h.config, h.session,
    hcalls.trans h.calls, h.launch⟩

/-- Any number of events of a run can be handed on. -/
theorem leads_forward (x : Launching) (id : RunId) (n : Nat) :
    Leads move x { x with forwarded := Function.update x.forwarded id (x.forwarded id + n) } := by
  induction n with
  | zero =>
    rw [Nat.add_zero, Function.update_eq_self]
    exact .refl
  | succ n ih =>
    have h := ih.tail (Move.forward id)
    have hmove : move { x with forwarded := Function.update x.forwarded id (x.forwarded id + n) }
        (.forward id) =
          { x with forwarded := Function.update x.forwarded id (x.forwarded id + (n + 1)) } := by
      show ({ x with
        forwarded := Function.update (Function.update x.forwarded id (x.forwarded id + n)) id
          (Function.update x.forwarded id (x.forwarded id + n) id + 1) } : Launching) = _
      rw [Function.update_self, Function.update_idem, Nat.add_assoc]
    rwa [hmove] at h

/-- A launch can see everything that its run has reported. -/
theorem Comes.sees (h : Comes x me stage r y) (id : RunId) :
    ∃ z, Comes x me stage r z ∧ z.seen id = reported r.supervisor id := by
  have hforward := leads_forward y id (reported r.supervisor id).length
  refine ⟨_, { h with leads := h.leads.trans hforward }, ?_⟩
  unfold seen
  rw [h.supervisor]
  refine List.take_of_length_le ?_
  show _ ≤ Function.update y.forwarded id (y.forwarded id + (reported r.supervisor id).length) id
  rw [Function.update_self]
  exact Nat.le_add_left ..

/-! ### What a launch does -/

/-- A launch goes on and does nothing to the supervisor. -/
theorem Comes.go (h : Comes x me stage r y) (hs : y.advance stage s = some stage')
    (hdeed : stage.deed? s = none) (hsession : y.nextSession (.go me s) = y.session) :
    Comes x me stage' r (y.move (.go me s)) := by
  have hsame := supervision_idle h.launch hdeed
  exact ⟨h.leads.tail _, by rw [hsame]; exact h.supervisor, h.config, hsession.trans h.session,
    by rw [hsame]; exact h.calls, launches_of_advance h.launch hs⟩

/-- A launch starts its program. -/
theorem Comes.starts {addr : String} {c : Command} {spawned : Except OsError Nat}
    (h : Comes x me (.starting addr) r y) (hs : y.advance (.starting addr) (.start c spawned) = some stage')
    (hr : r'.supervisor = (r.supervisor.start c spawned).2.1) :
    Comes x me stage' r' (y.move (.go me (.start c spawned))) := by
  have hmay : y.supervision.mayAnswer spawned = true := by
    by_contra hno
    rw [advance, if_neg hno] at hs
    cases hs
  have hstart : (y.move (.go me (.start c spawned))).supervision = y.supervision.start c spawned := by
    rw [supervision_go h.launch]
    exact if_pos hmay
  refine ⟨h.leads.tail _, ?_, h.config, h.session, ?_, launches_of_advance h.launch hs⟩
  · rw [hstart, hr, ← h.supervisor]
    rfl
  · rw [hstart]
    exact h.calls

/-! ### Connecting -/

section Connect

variable {network : Network} {c : DebugConfig} {addr last : String} {left n : Nat}

/-- A program that has exited is not connected to. -/
theorem connect_exited {e : Exit} (he : reportedExit? (reported r.supervisor id) = some e) :
    connect network c addr id (left + 1) n last r =
      (.error (.connect addr (n - 1) (exitedDetail e (errorTail (reported r.supervisor id)))), r) := by
  rw [connect]
  simp only [he]

/-- An attempt that is accepted is the last one. -/
theorem connect_accepted (he : reportedExit? (reported r.supervisor id) = none) (hn : network n = .ok ()) :
    ∃ r', r'.supervisor = r.supervisor ∧ connect network c addr id (left + 1) n last r = (.ok (), r') := by
  rw [connect]
  simp only [he, hn]
  exact ⟨r.logs [⟨.debug, target, "connected to debug adapter",
    [("addr", .shown addr), ("attempt", .int n)]⟩], rfl, rfl⟩

/-- After an attempt that is refused there is another one, unless it was the last. -/
theorem connect_refused {e : OsError} (he : reportedExit? (reported r.supervisor id) = none)
    (hn : network n = .error e) :
    ∃ r', r'.supervisor = r.supervisor ∧ connect network c addr id (left + 1) n last r =
      connect network c addr id left (n + 1) e.message
        (if left = 0 then r' else r'.sleep c.connectInterval) := by
  rw [connect]
  simp only [he, hn]
  exact ⟨r.logs [⟨.trace, target, "adapter not ready",
    [("addr", .shown addr), ("attempt", .int n), ("error", .shown e.message)]⟩], rfl, rfl⟩

/-- The stage of a launch that has tried to connect. -/
def answered (id : RunId) : Except DebugError Unit → Stage
  | .ok () => .connected id
  | .error e => .failing id e

/-- A launch that looks and tries once more, if what comes after an attempt that is refused is known. -/
theorem comes_round (h : Comes x me (.looking addr id left n) r y)
    (hrefused : ∀ (e : OsError) (r' : Runner) (z : Launching), Comes x me (.trying addr id left n) r' z →
      z.seen id = reported r'.supervisor id → ∃ w, Comes x me
        (answered id (connect network c addr id left (n + 1) e.message
          (if left = 0 then r' else r'.sleep c.connectInterval)).1)
        (connect network c addr id left (n + 1) e.message
          (if left = 0 then r' else r'.sleep c.connectInterval)).2 w) :
    ∃ w, Comes x me (answered id (connect network c addr id (left + 1) n last r).1)
      (connect network c addr id (left + 1) n last r).2 w := by
  obtain ⟨z, hz, hseen⟩ := h.sees id
  cases hexit : reportedExit? (reported r.supervisor id) with
  | some e =>
    rw [connect_exited hexit, ← hseen]
    rw [← hseen] at hexit
    exact ⟨_, hz.go (s := .look) (by rw [advance, hexit]; rfl) rfl rfl⟩
  | none =>
    have hlook : z.advance (.looking addr id left n) .look = some (.trying addr id left n) := by
      rw [advance, hseen, hexit]
    have htry := hz.go hlook rfl rfl
    cases hn : network n with
    | ok _ =>
      obtain ⟨r', hr, hconnect⟩ := connect_accepted hexit hn
      rw [hconnect]
      exact ⟨_, (htry.beside hr).go (s := .attempt (.ok ())) rfl rfl rfl⟩
    | error e =>
      obtain ⟨r', hr, hconnect⟩ := connect_refused hexit hn
      rw [hconnect]
      refine hrefused e r' _ (htry.beside hr) ?_
      rw [hr, ← hseen, seen, supervision_idle hz.launch rfl]
      rfl

/-- **Connecting is a sequence of moves of a launch**, from its first look on. -/
theorem comes_connect (network : Network) (last : String) (h : Comes x me (.looking addr id left n) r y) :
    ∃ z, Comes x me (answered id (connect network x.config addr id (left + 1) n last r).1)
      (connect network x.config addr id (left + 1) n last r).2 z := by
  induction left generalizing n last r y with
  | zero =>
    refine comes_round h fun e r' z hz hseen => ?_
    rw [if_pos rfl, connect, ← hseen]
    exact ⟨_, hz.go (s := .attempt (.error e)) rfl rfl rfl⟩
  | succ left ih =>
    refine comes_round h fun e r' z hz hseen => ?_
    rw [if_neg (Nat.succ_ne_zero left)]
    have hrefused : z.advance (.trying addr id (left + 1) n) (.attempt (.error e)) =
        some (.pausing addr id left n) := rfl
    have hpause := hz.go hrefused rfl rfl
    obtain ⟨w, hw⟩ := hpause.around (reaches_await (fun _ => (none : Option Unit))
      (some (r'.system.now + x.config.connectInterval.millis + 1)) Runner.patience hpause.supervisor)
    exact ih e.message (hw.go (s := .wake) rfl rfl rfl)

end Connect

/-! ### The whole launch -/

theorem supervisor_settle (process out err : Nat) (p : Option WaitStatus × Runner) :
    (Runner.settle process out err p).2.supervisor = p.2.supervisor := by
  obtain ⟨_ | status, r⟩ := p <;> rfl

/-- A program that is no run of the supervisor only lets time pass. -/
theorem reaches_consult {z : Supervision} (h : z.supervisor = r.supervisor) (command : Command)
    (limit : Duration) : Reaches z (r.consult command limit).2 := by
  unfold Runner.consult
  cases hs : r.system.spawn r.cwd command .nobody false with
  | error e => exact .refl h
  | ok q =>
    obtain ⟨process, out, err, system⟩ := q
    have hsystem : z.supervisor = ({ r with system } : Runner).supervisor := h
    obtain ⟨w, hw, hsupervisor, hcalls⟩ := reaches_await (Runner.settled? process out err)
      (some (system.now + limit.millis)) Runner.patience hsystem
    exact ⟨w, hw, hsupervisor.trans (supervisor_settle process out err _).symm, hcalls⟩

/-- Asking for the adapter only lets time pass. -/
theorem reaches_check {z : Supervision} (h : z.supervisor = r.supervisor) (c : DebugConfig)
    (request : RunRequest) : Reaches z (checkAdapter r c request).2 := by
  have hconsult := reaches_consult h (versionCommand r c request) checkLimit
  unfold checkAdapter
  simp only
  split
  · next heq => rw [heq] at hconsult; exact hconsult
  · next heq => rw [heq] at hconsult; exact hconsult
  · next heq =>
    rw [heq] at hconsult
    split
    · exact hconsult
    · exact hconsult

/-- How a launch stands when the runner has come to its result: it is connected, or it has failed before or
after its program was started, or it has not been told of its exit for as long as the runner had patience. -/
inductive Stands (call : Nat) : Except DebugError RunId → Stage → Prop where
  | connected (id : RunId) : Stands call (.ok id) (.connected id)
  | early (e : DebugError) : Stands call (.error e) (.failed e none)
  | stopped (id : RunId) (e : DebugError) : Stands call (.error e) (.failed e (some (id, call)))
  | waits (id : RunId) (e : DebugError) : Stands call (.error e) (.stopping id e call)

/-- Moves lead to a launch that stands as the runner has come to its result. The session is as it was. -/
structure Lands (x : Launching) (me call : Nat) (out : Except DebugError RunId × Runner) (z : Launching)
    (stage : Stage) : Prop where
  leads : Leads move x z
  supervisor : z.supervision.supervisor = out.2.supervisor
  session : z.session = x.session
  launch : z.launches me = some stage
  stands : Stands call out.1 stage

theorem Comes.lands {out : Except DebugError RunId × Runner} (h : Comes x me stage r y)
    (hr : out.2.supervisor = r.supervisor) (hs : Stands call out.1 stage) : Lands x me call out y stage :=
  ⟨h.leads, h.supervisor.trans hr.symm, h.session, h.launch, hs⟩

/-- The run of a launch is one of the runs of the supervisor. -/
theorem find?_of_leads {config : DebugConfig} {grace : Duration} (hx : Leads move (new config grace) x)
    (h : x.launches me = some stage) (hid : stage.run? = some id) :
    (x.supervision.supervisor.find? id).isSome = true := by
  obtain ⟨σ, n, hσ⟩ := hx.schedule (.around (.clock 0))
  have hlaunch : (after config grace σ n).launches me = some stage := by
    rw [after, hσ]
    exact h
  have hknown := (sound config grace σ hlaunch).known id hid
  rw [after, hσ] at hknown
  exact Option.isSome_iff_ne_none.mpr (find?_isSome_iff.mpr hknown)

/-- A launch that has failed calls for the stop of its program, and the call goes on until the runner has its
answer. -/
theorem leads_stopping {e : DebugError} (h : Comes x me (.failing id e) r y)
    (hid : (y.supervision.supervisor.find? id).isSome = true) (hcall : x.supervision.calls call = none) :
    ∃ z c, Leads move x z ∧ z.supervision.supervisor = (r.stop id).2.supervisor ∧ z.session = x.session ∧
      z.launches me = some (.stopping id e call) ∧ z.supervision.calls call = some c ∧
      Gives id (r.stop id).1 c := by
  have hnone : y.supervision.calls call = none := by rw [h.calls]; exact hcall
  have hstop : y.advance (.failing id e) (.stop call) = some (.stopping id e call) := by
    rw [advance, hnone]
    rfl
  have hsupervision : (y.move (.go me (.stop call))).supervision =
      y.supervision.put call (.asked id) y.supervision.supervisor := by
    rw [supervision_go h.launch]
    show (if (y.supervision.supervisor.find? id).isSome then y.supervision.begin call (.asked id)
      else y.supervision) = _
    rw [if_pos hid, begin, hnone]
  have hasked : (y.move (.go me (.stop call))).supervision.calls call = some (.asked id) := by
    rw [hsupervision]
    exact put_mine ..
  have hsupervisor : (y.move (.go me (.stop call))).supervision.supervisor = r.supervisor := by
    rw [hsupervision]
    exact h.supervisor
  obtain ⟨w, c, hw, hstopped, hc, hgives⟩ := leads_asked hsupervisor hasked
  exact ⟨{ y.move (.go me (.stop call)) with supervision := w }, c,
    (h.leads.tail (.go me (.stop call))).trans (leads_around _ hw), hstopped, h.session,
    launches_of_advance h.launch hstop, hc, hgives⟩

/-- A launch that has failed stops its program, and gives back its error once the call has its result. -/
theorem lands_failing {config : DebugConfig} {grace : Duration} {e : DebugError}
    (hx : Leads move (new config grace) x) (h : Comes x me (.failing id e) r y)
    (hcall : x.supervision.calls call = none) :
    ∃ z stage, Lands x me call (.error e, (r.stop id).2) z stage := by
  obtain ⟨z, c, hleads, hstopped, hsession, hwaits, hc, hgives⟩ :=
    leads_stopping h (find?_of_leads (hx.trans h.leads) h.launch rfl) hcall
  have hfinish (hback : c.isBack = true) :
      ∃ z stage, Lands x me call (.error e, (r.stop id).2) z stage := by
    have hover : z.advance (.stopping id e call) .finish = some (.failed e (some (id, call))) := by
      rw [advance, hc]
      exact if_pos hback
    exact ⟨z.move (.go me .finish), _, {
      leads := hleads.tail _
      supervisor := (congrArg Supervision.supervisor (supervision_idle hwaits rfl)).trans hstopped
      session := hsession
      launch := launches_of_advance hwaits hover
      stands := .stopped id e }⟩
  generalize (r.stop id).1 = exit at hgives
  cases hgives with
  | ended => exact hfinish rfl
  | gaveUp => exact hfinish rfl
  | waits deadline => exact ⟨z, _, hleads, hstopped, hsession, hwaits, .waits id e⟩

/-- A launch begins. -/
theorem comes_begin (h : x.supervision.supervisor = r.supervisor) (hme : x.launches me = none) (addr : String) :
    Comes x me (.checking addr) r (x.move (.begin me addr)) := by
  have hgoes : x.goes? (.begin me addr) = some (me, .checking addr) := by
    rw [goes?, hme]
    rfl
  refine ⟨.one x _, h, rfl, rfl, rfl, ?_⟩
  unfold move
  rw [hgoes]
  exact Function.update_self ..

/-- **A launch of a runner is a sequence of moves of one launch**, under the name `me`. Its program is stopped
by the call `call`, if it is. The number of the process that is started has to be a new one. -/
theorem lands_start {config : DebugConfig} {grace : Duration} (hx : Leads move (new config grace) x)
    (network : Network) (freePort : Nat) (request : RunRequest)
    (h : x.supervision.supervisor = r.supervisor) (hme : x.launches me = none)
    (hcall : x.supervision.calls call = none)
    (hfresh : ∀ c p, ((checkAdapter r x.config request).2.system.spawn
        (checkAdapter r x.config request).2.cwd c .shell true).map (fun (p, _) => p) = .ok p →
      ∀ q ∈ (checkAdapter r x.config request).2.supervisor.runs, q.process ≠ p) :
    ∃ z stage, Lands x me call (Launch.start network x.config freePort r request) z stage := by
  generalize haddr : address x.config.host (x.config.port.getD freePort) = addr
  obtain ⟨y, hy⟩ := (comes_begin h hme addr).around (reaches_check h x.config request)
  unfold Launch.start
  simp only [haddr]
  generalize checkAdapter r x.config request = q at hy hfresh
  obtain ⟨answer, r₁⟩ := q
  cases answer with
  | error e =>
    have hmissing : y.advance (.checking addr) (.check (.error e)) = some (.failed e none) := rfl
    exact ⟨_, _, (hy.go hmissing rfl rfl).lands rfl (.early e)⟩
  | ok _ =>
    have hthere : y.advance (.checking addr) (.check (.ok ())) = some (.starting addr) := rfl
    have hstarting := hy.go hthere rfl rfl
    generalize y.move (.go me (.check (.ok ()))) = y at hstarting
    generalize debuggeeRequest x.config addr request = debuggee
    obtain ⟨c, hresult, hsupervisor⟩ := supervisor_start r₁ debuggee
    generalize hspawned : (r₁.system.spawn r₁.cwd c .shell true).map (fun (p, _) => p) = spawned
      at hresult hsupervisor
    have hmay : y.supervision.mayAnswer spawned = true := by
      cases spawned with
      | error e => rfl
      | ok p =>
        refine List.all_eq_true.mpr fun q hq => ?_
        rw [hstarting.supervisor] at hq
        simp [hfresh c p hspawned q hq]
    have hstart := hresult.trans (congrArg (fun s => (s.start c spawned).1) hstarting.supervisor.symm)
    dsimp only
    generalize r₁.start debuggee = q at hresult hsupervisor hstart
    obtain ⟨result, r₂⟩ := q
    cases result with
    | error e =>
      have hrefused : y.advance (.starting addr) (.start c spawned) = some (.failed (.run e) none) := by
        rw [advance, if_pos hmay, ← hstart]
      exact ⟨_, _, (hstarting.starts hrefused hsupervisor).lands rfl (.early _)⟩
    | ok id =>
      have hlooking : y.advance (.starting addr) (.start c spawned) =
          some (.looking addr id (y.attempts - 1) 1) := by
        rw [advance, if_pos hmay, ← hstart]
      have hattempts : y.attempts - 1 + 1 = max x.config.connectAttempts 1 := by
        unfold attempts
        rw [hstarting.config]
        omega
      have hlooks := hstarting.starts hlooking hsupervisor
      dsimp only
      rw [← hattempts]
      generalize hlogged : r₂.logs _ = r₃
      have hsame : r₃.supervisor = r₂.supervisor := by rw [← hlogged]; rfl
      obtain ⟨z, hz⟩ := comes_connect network "" (hlooks.beside hsame)
      generalize connect network x.config addr id (y.attempts - 1 + 1) 1 "" r₃ = q at hz
      obtain ⟨answer, r₄⟩ := q
      cases answer with
      | ok _ => exact ⟨z, _, hz.lands rfl (.connected id)⟩
      | error e => exact lands_failing hx hz hcall

/-! ### The front door -/

theorem config_of_leads (h : Leads move x y) : y.config = x.config := by
  induction h with
  | refl => rfl
  | tail m _ ih => exact ih

/-- **What a manager does to launch is part of an order of moves**, whatever was so before: one launch, under
the name `me`, succeeds or fails as the manager says, and the manager keeps the session of that order. A launch
that fails may still wait for its call if the runner had no more patience. -/
theorem launch_order {grace : Duration} (m : Manager) (hx : Leads move (new m.debug grace) x)
    (network : Network) (freePort : Nat) (request : LaunchRequest)
    (h : x.supervision.supervisor = m.runner.supervisor) (hsession : x.session = m.session)
    (hme : x.launches me = none) (hcall : x.supervision.calls call = none)
    (hfresh : ∀ c p, ((checkAdapter m.runner m.debug request.run).2.system.spawn
        (checkAdapter m.runner m.debug request.run).2.cwd c .shell true).map (fun (p, _) => p) = .ok p →
      ∀ q ∈ (checkAdapter m.runner m.debug request.run).2.supervisor.runs, q.process ≠ p) :
    ∃ (σ : Nat → Move) (n : Nat),
      (after m.debug grace σ n).supervision.supervisor =
          (m.launch network freePort request).2.runner.supervisor ∧
        (after m.debug grace σ n).session = (m.launch network freePort request).2.session ∧
        ((∃ id, (m.launch network freePort request).1 = .ok id ∧
            (after m.debug grace σ n).launches me = some (.launched id)) ∨
          ∃ e stage, (m.launch network freePort request).1 = .error e ∧
            (after m.debug grace σ n).launches me = some stage ∧ Stands call (.error e) stage) := by
  have hconfig : x.config = m.debug := config_of_leads hx
  rw [← hconfig] at hfresh
  obtain ⟨z, stage, hz⟩ := lands_start hx network freePort request.run h hme hcall hfresh
  have hleads := hx.trans hz.leads
  unfold Manager.launch
  rw [← hconfig]
  generalize Launch.start network x.config freePort m.runner request.run = out at hz
  obtain ⟨result, runner⟩ := out
  have hstands := hz.stands
  have hlaunch := hz.launch
  cases result with
  | error e =>
    obtain ⟨σ, n, hσ⟩ := hleads.schedule (.around (.clock 0))
    refine ⟨σ, n, ?_⟩
    rw [after, hconfig, hσ]
    exact ⟨hz.supervisor, hz.session.trans hsession, Or.inr ⟨e, stage, rfl, hlaunch, hstands⟩⟩
  | ok id =>
    cases hstands
    have hsettle : z.nextSession (.go me (.settle (.ok ()))) = some id := by
      rw [nextSession, hlaunch]
    obtain ⟨σ, n, hσ⟩ := (hleads.tail (.go me (.settle (.ok ())))).schedule (.around (.clock 0))
    refine ⟨σ, n, ?_⟩
    rw [after, hconfig, hσ]
    exact ⟨(congrArg Supervision.supervisor (supervision_idle hlaunch rfl)).trans hz.supervisor, hsettle,
      Or.inl ⟨id, rfl, launches_of_advance hlaunch rfl⟩⟩

end DebugHost.Launching
