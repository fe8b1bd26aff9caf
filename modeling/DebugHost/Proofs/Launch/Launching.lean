import DebugHost.Launch
import DebugHost.Proofs.Process.OnePlace

/-! # Launches among all who use the supervisor

A launch is several moves: it asks for the adapter, starts its program, looks whether it has exited, tries to
connect, sleeps, looks again, and calls for a stop when it fails. Between any two of them others may start and
stop programs, and launch some themselves; what a run reports reaches the launch one event at a time and as
late as it may be. `Stage` says how far a launch is, `Launching.advance` what it does next.

A move does at most one thing to the supervisor (`Launching.deed`), so that whatever happens is one order of
moves of it (`supervision_after`), and what is known of these holds of launches. -/

namespace DebugHost

open DebugHost.Launch

/-- Whether a call has given back a result, in time or not. -/
def Supervision.Call.isBack : Supervision.Call → Bool
  | .idle | .ended _ _ | .gaveUp _ _ => true
  | _ => false

namespace Launching

/-- How far a launch has come. In the stages in which it connects, `left` more attempts may follow attempt
`n`. -/
inductive Stage where
  /-- It chooses its port, and asks for the adapter. -/
  | checking (addr : String)
  /-- It is about to start its program. -/
  | starting (addr : String)
  /-- It is about to look whether its program has exited, before attempt `n`. -/
  | looking (addr : String) (id : RunId) (left n : Nat)
  /-- It makes attempt `n`. -/
  | trying (addr : String) (id : RunId) (left n : Nat)
  /-- It sleeps after attempt `n`. -/
  | pausing (addr : String) (id : RunId) (left n : Nat)
  /-- It is connected, and sets up its session. -/
  | connected (id : RunId)
  /-- Its session is set up. -/
  | launched (id : RunId)
  /-- It has failed, and is about to stop its program. -/
  | failing (id : RunId) (error : DebugError)
  /-- It waits for the call that stops its program. -/
  | stopping (id : RunId) (error : DebugError) (call : Nat)
  /-- It has given back its error; a program that it had started was to be stopped by a call. -/
  | failed (error : DebugError) (stop : Option (RunId × Nat))

/-- The run that a launch has started. -/
def Stage.run? : Stage → Option RunId
  | .checking _ | .starting _ => none
  | .looking _ id _ _ | .trying _ id _ _ | .pausing _ id _ _ | .connected id | .launched id
  | .failing id _ | .stopping id _ _ => some id
  | .failed _ stop => stop.map (·.1)

/-- Whether a launch has failed. -/
def Stage.isFailed : Stage → Bool
  | .failed .. => true
  | _ => false

/-- What a launch may do next, with what comes of it. -/
inductive Step where
  | check (answer : Except DebugError Unit)
  | start (c : Command) (spawned : Except OsError Nat)
  | look
  | attempt (answer : Except OsError Unit)
  | wake
  | settle (answer : Except DebugError Unit)
  /-- It calls for the stop of its program, under a name that no other call has had. -/
  | stop (call : Nat)
  /-- Its call is over. -/
  | finish

/-- What may happen next. -/
inductive Move where
  /-- Something happens that is no matter of a launch, or a call goes on. -/
  | around (m : Supervision.Move)
  /-- One more of the events of a run is handed on. -/
  | forward (id : RunId)
  /-- A launch begins, under a name that no other launch has had. -/
  | begin (me : Nat) (addr : String)
  /-- A launch goes on. -/
  | go (me : Nat) (s : Step)

/-- The launch that makes a move. -/
def Move.launch? : Move → Option Nat
  | .begin me _ | .go me _ => some me
  | _ => none

end Launching

open DebugHost.Launching

/-- A supervisor with all who use it, those who launch programs among them. -/
structure Launching where
  config : DebugConfig
  supervision : Supervision
  /-- The run of the last debug session. -/
  session : Option RunId := none
  /-- The launches by name. -/
  launches : Nat → Option Stage := fun _ => none
  /-- How many events of a run have been handed on. -/
  forwarded : RunId → Nat := fun _ => 0

namespace Launching

/-- What the launch of a run has seen of it. -/
def seen (x : Launching) (id : RunId) : List ProcessEvent :=
  (reported x.supervision.supervisor id).take (x.forwarded id)

/-- How often a connection is tried. -/
def attempts (x : Launching) : Nat := max x.config.connectAttempts 1

/-- A launch goes on: the stage that it comes to, if it can do this next. -/
def advance (x : Launching) : Stage → Step → Option Stage
  | .checking addr, .check (.ok ()) => some (.starting addr)
  | .checking _, .check (.error e) => some (.failed e none)
  | .starting addr, .start c spawned =>
    if x.supervision.mayAnswer spawned then
      match (x.supervision.supervisor.start c spawned).1 with
      | .ok id => some (.looking addr id (x.attempts - 1) 1)
      | .error e => some (.failed (.run e) none)
    else none
  | .looking addr id left n, .look =>
    match reportedExit? (x.seen id) with
    | some e => some (.failing id (.connect addr (n - 1) (exitedDetail e (errorTail (x.seen id)))))
    | none => some (.trying addr id left n)
  | .trying _ id _ _, .attempt (.ok ()) => some (.connected id)
  | .trying addr id 0 n, .attempt (.error e) =>
    some (.failing id (.connect addr n (refusedDetail e.message (errorTail (x.seen id)))))
  | .trying addr id (left + 1) n, .attempt (.error _) => some (.pausing addr id left n)
  | .pausing addr id left n, .wake => some (.looking addr id left (n + 1))
  | .connected id, .settle (.ok ()) => some (.launched id)
  | .connected id, .settle (.error e) => some (.failing id e)
  | .failing id e, .stop call =>
    if (x.supervision.calls call).isNone then some (.stopping id e call) else none
  | .stopping id e call, .finish =>
    if (x.supervision.calls call).any (·.isBack) then some (.failed e (some (id, call))) else none
  | _, _ => none

/-- What a launch does to the supervisor when it goes on. -/
def Stage.deed? : Stage → Step → Option Supervision.Move
  | .starting _, .start c spawned => some (.start c spawned)
  | .failing id _, .stop call => some (.stop call id)
  | _, _ => none

/-- What a move does to the supervisor: nothing but setting the clock to what it shows, if it does nothing. -/
def deed (x : Launching) : Move → Supervision.Move
  | .around m => m
  | .go me s => ((x.launches me).bind (·.deed? s)).getD (.clock x.supervision.now)
  | _ => .clock x.supervision.now

/-- The launch that comes to another stage in a move. -/
def goes? (x : Launching) : Move → Option (Nat × Stage)
  | .begin me addr => if (x.launches me).isNone then some (me, .checking addr) else none
  | .go me s => ((x.launches me).bind (x.advance · s)).map (me, ·)
  | _ => none

/-- The session after a move: only a launch whose session is set up takes the place of the one before. -/
def nextSession (x : Launching) : Move → Option RunId
  | .go me (.settle (.ok ())) =>
    match x.launches me with
    | some (.connected id) => some id
    | _ => x.session
  | _ => x.session

/-- What is handed on after a move. -/
def nextForwarded (x : Launching) : Move → RunId → Nat
  | .forward id => Function.update x.forwarded id (x.forwarded id + 1)
  | _ => x.forwarded

def move (x : Launching) (m : Move) : Launching where
  config := x.config
  supervision := x.supervision.move (x.deed m)
  session := x.nextSession m
  launches := match x.goes? m with
    | some (me, stage) => Function.update x.launches me (some stage)
    | none => x.launches
  forwarded := x.nextForwarded m

/-- Nothing has been started or launched. -/
def new (config : DebugConfig) (grace : Duration) : Launching where
  config := config
  supervision := .new grace

/-- What the first `n` moves of a schedule lead to. -/
def after (config : DebugConfig) (grace : Duration) (σ : Nat → Move) (n : Nat) : Launching :=
  reached move (new config grace) σ n

theorem after_succ (config : DebugConfig) (grace : Duration) (σ : Nat → Move) (n : Nat) :
    after config grace σ (n + 1) = (after config grace σ n).move (σ n) := rfl

variable {config : DebugConfig} {grace : Duration} {σ : Nat → Move} {x : Launching} {m : Move}

/-! ### The supervisor beneath -/

/-- **Whatever happens is one order of moves of the supervisor.** -/
theorem supervision_after (config : DebugConfig) (grace : Duration) (σ : Nat → Move) (n : Nat) :
    (after config grace σ n).supervision =
      Supervision.after grace (fun k => (after config grace σ k).deed (σ k)) n := by
  induction n with
  | zero => rfl
  | succ n ih =>
    rw [after_succ, Supervision.after_succ, ← ih]
    rfl

/-! ### Launches -/

/-- All that a launch can do, and the stage that it comes to. -/
inductive Advances (x : Launching) : Stage → Step → Stage → Prop where
  | checks {addr : String} : Advances x (.checking addr) (.check (.ok ())) (.starting addr)
  | misses {addr : String} {e : DebugError} :
    Advances x (.checking addr) (.check (.error e)) (.failed e none)
  | starts {addr : String} {c : Command} {spawned : Except OsError Nat} {id : RunId}
    (hmay : x.supervision.mayAnswer spawned = true)
    (hstart : (x.supervision.supervisor.start c spawned).1 = .ok id) :
    Advances x (.starting addr) (.start c spawned) (.looking addr id (x.attempts - 1) 1)
  | refused {addr : String} {c : Command} {spawned : Except OsError Nat} {e : RunError}
    (hmay : x.supervision.mayAnswer spawned = true)
    (hstart : (x.supervision.supervisor.start c spawned).1 = .error e) :
    Advances x (.starting addr) (.start c spawned) (.failed (.run e) none)
  | sees {addr : String} {id : RunId} {left n : Nat} {e : Exit}
    (hexit : reportedExit? (x.seen id) = some e) :
    Advances x (.looking addr id left n) .look
      (.failing id (.connect addr (n - 1) (exitedDetail e (errorTail (x.seen id)))))
  | looks {addr : String} {id : RunId} {left n : Nat} (hexit : reportedExit? (x.seen id) = none) :
    Advances x (.looking addr id left n) .look (.trying addr id left n)
  | connects {addr : String} {id : RunId} {left n : Nat} :
    Advances x (.trying addr id left n) (.attempt (.ok ())) (.connected id)
  | givesUp {addr : String} {id : RunId} {n : Nat} {e : OsError} :
    Advances x (.trying addr id 0 n) (.attempt (.error e))
      (.failing id (.connect addr n (refusedDetail e.message (errorTail (x.seen id)))))
  | pauses {addr : String} {id : RunId} {left n : Nat} {e : OsError} :
    Advances x (.trying addr id (left + 1) n) (.attempt (.error e)) (.pausing addr id left n)
  | wakes {addr : String} {id : RunId} {left n : Nat} :
    Advances x (.pausing addr id left n) .wake (.looking addr id left (n + 1))
  | settles {id : RunId} : Advances x (.connected id) (.settle (.ok ())) (.launched id)
  | fails {id : RunId} {e : DebugError} : Advances x (.connected id) (.settle (.error e)) (.failing id e)
  | stops {id : RunId} {e : DebugError} {call : Nat} (hcall : x.supervision.calls call = none) :
    Advances x (.failing id e) (.stop call) (.stopping id e call)
  | returns {id : RunId} {e : DebugError} {call : Nat} {c : Supervision.Call}
    (hcall : x.supervision.calls call = some c) (hback : c.isBack = true) :
    Advances x (.stopping id e call) .finish (.failed e (some (id, call)))

/-- **A launch does one of these things.** -/
theorem advances_of_advance {stage stage' : Stage} {s : Step} (h : x.advance stage s = some stage') :
    Advances x stage s stage' := by
  unfold advance at h
  split at h
  · cases h; exact .checks
  · cases h; exact .misses
  · split at h
    · next hmay =>
      split at h
      · next id hstart => cases h; exact .starts hmay hstart
      · next e hstart => cases h; exact .refused hmay hstart
    · cases h
  · split at h
    · next e hexit => cases h; exact .sees hexit
    · next hexit => cases h; exact .looks hexit
  · cases h; exact .connects
  · cases h; exact .givesUp
  · cases h; exact .pauses
  · cases h; exact .wakes
  · cases h; exact .settles
  · cases h; exact .fails
  · split at h
    · next hcall => cases h; exact .stops (Option.isNone_iff_eq_none.mp hcall)
    · cases h
  · split at h
    · next hcall =>
      obtain ⟨c, hc, hback⟩ := Option.any_eq_true _ _ |>.mp hcall
      cases h
      exact .returns hc hback
    · cases h
  · cases h

/-- A launch that can go on comes to its next stage. -/
theorem launches_of_advance {stage stage' : Stage} {s : Step} {me : Nat} (hstage : x.launches me = some stage)
    (h : x.advance stage s = some stage') : (x.move (.go me s)).launches me = some stage' := by
  have hgoes : x.goes? (.go me s) = some (me, stage') := by
    rw [goes?, hstage, Option.bind_some, h]
    rfl
  unfold move
  rw [hgoes]
  exact Function.update_self ..

/-- All that can become of a launch in a move. -/
theorem launches_move (x : Launching) (m : Move) (me : Nat) :
    ((x.move m).launches me = x.launches me) ∨
    (∃ addr, m = .begin me addr ∧ x.launches me = none ∧
      (x.move m).launches me = some (.checking addr)) ∨
    (∃ s stage stage', m = .go me s ∧ x.launches me = some stage ∧ Advances x stage s stage' ∧
      (x.move m).launches me = some stage') := by
  have hlaunches : (x.move m).launches me = (match x.goes? m with
      | some (i, stage) => Function.update x.launches i (some stage)
      | none => x.launches) me := rfl
  cases hg : x.goes? m with
  | none =>
    rw [hg] at hlaunches
    exact Or.inl hlaunches
  | some p =>
    obtain ⟨i, stage'⟩ := p
    rw [hg] at hlaunches
    simp only [Function.update_apply] at hlaunches
    by_cases hi : me = i
    · subst hi
      rw [if_pos rfl] at hlaunches
      cases m with
      | around m => cases hg
      | forward id => cases hg
      | begin i addr =>
        simp only [goes?] at hg
        split at hg
        · next hnone =>
          cases hg
          exact Or.inr (Or.inl ⟨addr, rfl, Option.isNone_iff_eq_none.mp hnone, hlaunches⟩)
        · cases hg
      | go i s =>
        obtain ⟨stage'', hgoes, hpair⟩ := Option.map_eq_some_iff.mp hg
        cases hpair
        obtain ⟨stage, hstage, hadvance⟩ := Option.bind_eq_some_iff.mp hgoes
        exact Or.inr (Or.inr ⟨s, stage, stage', rfl, hstage, advances_of_advance hadvance, hlaunches⟩)
    · rw [if_neg hi] at hlaunches
      exact Or.inl hlaunches

/-! ### What a launch does to the supervisor -/

/-- What becomes of the supervision when a launch goes on. -/
theorem supervision_go {stage : Stage} {me : Nat} (hstage : x.launches me = some stage) (s : Step) :
    (x.move (.go me s)).supervision =
      x.supervision.move ((stage.deed? s).getD (.clock x.supervision.now)) := by
  show x.supervision.move (x.deed (.go me s)) = _
  rw [deed, hstage]
  rfl

theorem supervision_idle {stage : Stage} {s : Step} {me : Nat} (hstage : x.launches me = some stage)
    (hdeed : stage.deed? s = none) : (x.move (.go me s)).supervision = x.supervision := by
  rw [supervision_go hstage, hdeed]
  rfl

/-- All that a move of a launch does to the supervisor: nothing, or it starts the program of the launch, or it
calls for the stop of this program. -/
inductive Handles (x : Launching) (me : Nat) (m : Move) : Prop where
  | nothing (hsame : (x.move m).supervision = x.supervision)
  | starts (addr : String) (c : Command) (spawned : Except OsError Nat) (id : RunId)
    (hdeed : x.deed m = .start c spawned) (hstart : (x.supervision.supervisor.start c spawned).1 = .ok id)
    (hgoes : (x.move m).launches me = some (.looking addr id (x.attempts - 1) 1))
  | stops (id : RunId) (e : DebugError) (call : Nat) (hdeed : x.deed m = .stop call id)
    (hstage : x.launches me = some (.failing id e))

/-- A start that is refused changes nothing. -/
theorem supervision_refused {y : Supervision} {c : Command} {spawned : Except OsError Nat}
    (h : ∀ id, (y.supervisor.start c spawned).1 ≠ .ok id) : y.start c spawned = y := by
  cases hstart : (y.supervisor.start c spawned).1 with
  | ok id => exact absurd hstart (h id)
  | error e =>
    unfold Supervision.start
    rw [Supervision.start_failed hstart]

/-- A launch that is about to start its program starts it, or does nothing. -/
theorem handles_start {me : Nat} {addr : String} (hstage : x.launches me = some (.starting addr)) (c : Command)
    (spawned : Except OsError Nat) : Handles x me (.go me (.start c spawned)) := by
  have hdeed : x.deed (.go me (.start c spawned)) = .start c spawned := by
    rw [deed, hstage]
    rfl
  have hsupervision : (x.move (.go me (.start c spawned))).supervision =
      if x.supervision.mayAnswer spawned then x.supervision.start c spawned else x.supervision :=
    supervision_go hstage _
  by_cases hmay : x.supervision.mayAnswer spawned = true
  · rw [if_pos hmay] at hsupervision
    cases hstart : (x.supervision.supervisor.start c spawned).1 with
    | error e =>
      refine .nothing (hsupervision.trans (supervision_refused fun id hid => ?_))
      cases hstart.symm.trans hid
    | ok id =>
      exact .starts addr c spawned id hdeed hstart
        (launches_of_advance hstage (by rw [advance, if_pos hmay, hstart]))
  · exact .nothing (hsupervision.trans (if_neg hmay))

/-- **A launch does one of these things to the supervisor.** -/
theorem handles (x : Launching) {m : Move} {me : Nat} (hm : m.launch? = some me) : Handles x me m := by
  cases m with
  | around m => cases hm
  | forward id => cases hm
  | begin i addr => exact .nothing rfl
  | go i s =>
    obtain rfl : i = me := Option.some.inj hm
    cases hstage : x.launches i with
    | none =>
      refine .nothing ?_
      show x.supervision.move (x.deed (.go i s)) = _
      rw [deed, hstage]
      rfl
    | some stage =>
      cases hdeed : stage.deed? s with
      | none => exact .nothing (supervision_idle hstage hdeed)
      | some d =>
        unfold Stage.deed? at hdeed
        split at hdeed
        · exact handles_start hstage _ _
        · next id e call => exact .stops id e call (by rw [deed, hstage]; rfl) hstage
        · cases hdeed

end Launching
end DebugHost
