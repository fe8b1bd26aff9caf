import DebugHost.Proofs.Session.Mail

/-! # Generations beside any number of users

Whatever users do, only the inputs that the session takes change its status (`Crowd.beside_happen`), so
that its parts stay in step (`Crowd.lockstep`). A generation begins when the session enters a state, and
goes on as long as it enters none (`Crowd.reign`). -/

namespace DebugHost

open DebugHost.Session

variable {ρ : Type}

namespace Crowd

open Debugger

variable {fit : Script ρ → Prop} {d : Debugger ρ} {σ : Nat → Happening fit} {n : Nat}

/-- The session when `n` things have happened. -/
def session (d : Debugger ρ) (σ : Nat → Happening fit) (n : Nat) : State := (after d σ n).room.state

/-- The state that the session enters, or enters anew, when something happens. -/
def entered? (d : Debugger ρ) (h : Happening fit) : Option RunState :=
  (input? d h).bind (d.room.state.entered? d.link.connection)

theorem beside_stride (d : Debugger ρ) (me : Nat) : d.Beside (d.stride me) := by
  have hattempt {a : Action} {e e' : Debugger ρ} {o : Attempt a.Reply}
      (ha : (d.without me).attempt me a = (e, o)) (hroom : e'.room = e.room)
      (hlink : e'.link = e.link) : d.Beside e' := by
    have h := beside_attempt (d.without me) me a
    rw [ha] at h
    exact ⟨by rw [hroom]; exact h.status, by rw [hroom]; exact h.published,
      by rw [hroom]; exact h.epoch, by rw [hroom]; exact h.stopping, by rw [hroom]; exact h.tree,
      by rw [hroom]; exact h.events, by rw [hlink]; exact h.closed⟩
  have hgoes := goes d me
  generalize own? d me = x, d.stride me = d' at hgoes ⊢
  cases hgoes with
  | idle => exact .refl d
  | does t x next e ht hn ha => exact hattempt (e := e) ha rfl rfl
  | waits t a next e ss deadline ht hn ha => exact hattempt (e := e) ha rfl rfl
  | ends t told ht ho => exact .of_state rfl rfl fun h => h

/-- Where the session takes no input, nothing is done to it. -/
theorem beside_happen {h : Happening fit} (hi : input? d h = none) : d.Beside (happen d h) := by
  cases h with
  | task me => exact beside_stride d me
  | session =>
    show d.Beside d.attend
    cases attends d with
    | leaves ho hd =>
      obtain ⟨hstate, hlink, hevents⟩ := leave_keeps d
      rw [hd]
      exact .of_state hstate hevents fun hc => hlink ▸ hc
    | rests ho hn hd => rw [hd]; exact .refl d
    | takes i room ho hn hd =>
      rw [input?, if_neg ho, hn] at hi
      cases hi
  | call id s hs => exact .of_state rfl rfl fun h => h
  | outside m hm =>
    refine beside_move ?_
    unfold taken?
    split
    · rfl
    · cases m <;> first | rfl | cases hm
  | lift me => simp only [happen]; split <;> exact .of_state rfl rfl fun h => h
  | lay me t => simp only [happen]; split <;> exact .of_state rfl rfl fun h => h
  | aside e => exact .of_state rfl rfl fun h => h

/-- A session that is over stays as it is. -/
theorem beside_over (ho : d.Over) (h : Happening fit) : d.Beside (happen d h) := by
  refine beside_happen ?_
  cases h with
  | session => exact if_pos ho
  | _ => rfl

/-- **What is over is over.** -/
theorem over_mono {m : Nat} (ho : (after d σ m).Over) (hmn : m ≤ n) :
    (after d σ n).Over ∧ (session d σ n).status = (session d σ m).status := by
  induction hmn with
  | refl => exact ⟨ho, rfl⟩
  | @step k _ ih =>
    obtain ⟨hover, hsame⟩ := ih
    have hb := beside_over hover (σ k)
    exact ⟨(congrArg Status.state hb.status).trans hover, hb.status.trans hsame⟩

/-- An input that the session takes is handled as it handles inputs. -/
theorem handles_happen {h : Happening fit} {i : Input} (hi : input? d h = some i) :
    ¬ d.Over ∧ ∃ o, Handles d.room.state d.link.connection i o ∧ (happen d h).room.state = o.state := by
  cases h with
  | session =>
    cases attends d with
    | leaves ho hd => rw [input?, if_pos ho] at hi; cases hi
    | rests ho hn hd => rw [input?, if_neg ho, hn] at hi; cases hi
    | takes i' room ho hn hd =>
      rw [input?, if_neg ho, hn] at hi
      cases hi
      obtain ⟨o, hh, hs, -⟩ := handles_next hn ho
      exact ⟨ho, o, hh, (congrArg (·.room.state) hd).trans hs⟩
  | _ => cases hi

/-- **The parts of a session stay in step.** -/
theorem lockstep (h : Lockstep d.room.state) (σ : Nat → Happening fit) (n : Nat) :
    Lockstep (session d σ n) := by
  induction n with
  | zero => exact h
  | succ n ih =>
    cases hi : input? (after d σ n) (σ n) with
    | none =>
      have hb := beside_happen hi
      exact ih.keep hb.status hb.published hb.tree
    | some i =>
      obtain ⟨hover, o, hh, hs⟩ := handles_happen hi
      show Lockstep (happen (after d σ n) (σ n)).room.state
      rw [hs]
      exact State.lockstep_handles ih hover hh

theorem lockstep_opened (timeout : Duration) (id : SessionId) :
    Lockstep (opened timeout id : Debugger ρ).room.state := by
  rw [opened_eq]
  exact lockstep_fresh ({ link := .start timeout } : Debugger ρ) id true

/-- A session that enters a state begins a generation. -/
theorem generation_entered (h : Lockstep d.room.state) {st : RunState}
    (he : entered? (after d σ n) (σ n) = some st) :
    (session d σ (n + 1)).status.generation = (session d σ n).status.generation.next := by
  obtain ⟨i, hi, he⟩ := Option.bind_eq_some_iff.mp he
  obtain ⟨-, o, hh, hs⟩ := handles_happen hi
  show (happen (after d σ n) (σ n)).room.state.status.generation = _
  rw [hs]
  exact (State.handles_entered (lockstep h σ n) hh he).2

/-- Otherwise its status stays. -/
theorem status_stays (he : entered? (after d σ n) (σ n) = none) :
    (session d σ (n + 1)).status = (session d σ n).status := by
  cases hi : input? (after d σ n) (σ n) with
  | none => exact (beside_happen hi).status
  | some i =>
    obtain ⟨-, o, hh, hs⟩ := handles_happen hi
    rw [entered?, hi, Option.bind_some] at he
    show (happen (after d σ n) (σ n)).room.state.status = _
    rw [hs]
    exact State.handles_stays hh he

theorem generation_mono (h : Lockstep d.room.state) {m : Nat} (hmn : m ≤ n) :
    (session d σ m).status.generation.number ≤ (session d σ n).status.generation.number := by
  induction hmn with
  | refl => exact Nat.le_refl _
  | @step k _ ih =>
    refine Nat.le_trans ih ?_
    cases he : entered? (after d σ k) (σ k) with
    | none => exact Nat.le_of_eq (congrArg (·.generation.number) (status_stays he)).symm
    | some st => rw [Nat.succ_eq_add_one, generation_entered h he]; exact Nat.le_succ _

/-- **A generation goes on** from the moment in which it began. -/
theorem reign (h : Lockstep d.room.state) (σ : Nat → Happening fit) (n : Nat) :
    ∃ s ≤ n, ∀ j ≤ n,
      (session d σ j).status.generation = (session d σ n).status.generation ↔ s ≤ j := by
  have hexists : ∃ s, (session d σ s).status.generation = (session d σ n).status.generation := ⟨n, rfl⟩
  classical
  refine ⟨Nat.find hexists, Nat.find_min' hexists rfl, fun j hj => ⟨fun hg => ?_, fun hs => ?_⟩⟩
  · exact Nat.find_min' hexists hg
  · have hbegan := generation_mono (σ := σ) h hs
    rw [Nat.find_spec hexists] at hbegan
    have hends := generation_mono (σ := σ) h hj
    exact congrArg Generation.mk (Nat.le_antisymm hends hbegan)

/-- As long as a generation goes on, the session enters no state. -/
theorem stays_of_generation (h : Lockstep d.room.state)
    (hg : (session d σ (n + 1)).status.generation = (session d σ n).status.generation) :
    entered? (after d σ n) (σ n) = none := by
  refine Option.eq_none_iff_forall_ne_some.mpr fun st he => ?_
  rw [generation_entered h he] at hg
  exact Nat.succ_ne_self _ (congrArg Generation.number hg)

end Crowd
end DebugHost
