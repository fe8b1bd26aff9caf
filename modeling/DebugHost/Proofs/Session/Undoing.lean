import DebugHost.Proofs.Session.Resuming

/-! # Failed resumes

The session lets the program go on before the adapter has answered. If the adapter refuses, or does not
answer in time, the session is told so with the epoch at which it had sent the request
(`Debugger.Sends`), and comes back into the pause that it had left if this is still its epoch. The epoch
counts the events and the changes of state (`State.handles_epoch`), so that it is the same exactly if
nothing has happened since (`Debugger.Quiet`). The state alone would not tell: the program may have
stopped and gone on in between. -/

namespace DebugHost

open DebugHost.Session

namespace Session

/-- Whether an input is an event of the adapter. -/
def Input.isEvent : Input → Bool
  | .event _ => true
  | _ => false

namespace State

variable {s : State} {c : Connection} {i : Input} {o : Outcome}

/-! ### One step -/

theorem enter_status (s : State) (st : RunState) (paused : Bool) :
    (s.enter st paused).status =
      { s.status with state := st, generation := s.tree.generation.next } := rfl

theorem note_epoch (s : State) (i : Input) :
    (s.note i).epoch = s.epoch + if i.isEvent then 1 else 0 := by
  cases i with
  | event e =>
    simp only [note]
    split <;> rfl
  | closed reason => rfl
  | command cmd =>
    rcases note_command s cmd with h | h
    · rw [h]; rfl
    · rw [h]; rfl

/-- **The epoch counts events and changes of state.** -/
theorem handles_epoch (h : Handles s c i o) :
    o.state.epoch = s.epoch + (if i.isEvent then 1 else 0) +
      if (s.entered? c i).isSome then 1 else 0 := by
  cases h with
  | stays hi hs => rw [hs, hi]; exact note_epoch s i
  | enters st hi _ _ hs =>
    rw [hs, hi, ← note_epoch]
    rfl
  | resumes kind thread ticket hi hp ho hs =>
    rw [hs, hi]
    simp only [entered?, hp, ho]
    rfl
  | ends cause hi _ hs =>
    rw [hs, hi, ← note_epoch]
    rfl

/-- A command that does not end the session is not reported. -/
theorem silent_of_command {cmd : Command} (h : Handles s c (.command cmd) o)
    (hw : (Input.command cmd).cause? = none) : emitted o.effects = [] := by
  cases h with
  | stays _ _ _ hr => exact hr
  | enters _ _ _ _ _ _ hr => exact hr
  | resumes _ _ _ _ _ _ _ _ hr => exact hr
  | ends cause _ hcause => rw [hw] at hcause; cases hcause

variable {x : Exchange} {epoch ticket : Nat}

theorem sent_eventBody (α : Type) [Json.Typed α] [Inhabited α] (e : Event) :
    .sent x epoch ticket ∉ (eventBody (α := α) e).2 := by
  unfold eventBody
  split <;> simp

theorem sent_terminate (s : State) (c : Connection) (cause : Termination) :
    .sent x epoch ticket ∉ (s.terminate c cause).effects := by
  unfold terminate
  split <;> simp

/-- No event lets the program go on. -/
theorem sent_event (s : State) (c : Connection) (e : Event) :
    .sent x epoch ticket ∉ (s.onEvent c e).effects := by
  unfold onEvent
  simp only
  split
  · split <;> simp
  · simp [before, stopped, sent_eventBody]
  · simp only [before, List.mem_append, not_or]
    exact ⟨sent_eventBody _ e, by split <;> simp⟩
  · simp [before, sent_eventBody, sent_terminate]
  · exact sent_terminate _ _ _
  · simp [sent_eventBody]
  · simp [sent_eventBody]
  · simp

/-- A request to let a thread go on is sent in a pause, on the command to do so, and the session leaves
the pause with it. -/
theorem sent_step (h : .sent x epoch ticket ∈ (s.step c i).effects) :
    ∃ kind thread, i = .command (.order (.resume kind thread) ticket) ∧
      s.status.state = .paused ∧ c.isClosed = false ∧ x = ⟨c.nextSeq, kind.command, none⟩ ∧
      (s.step c i).state = s.enter .running false ∧ epoch = (s.step c i).state.epoch := by
  cases i with
  | event e => exact absurd h (sent_event s c e)
  | closed reason => exact absurd h (sent_terminate _ _ _)
  | command cmd =>
    simp only [step] at h ⊢
    cases cmd with
    | order o t =>
      cases o with
      | resume kind thread =>
        simp only [onCommand, resume] at h ⊢
        split at h
        · simp at h
        · next hp =>
          cases ho : c.isClosed with
          | true => simp [Connection.send, ho] at h
          | false =>
            rw [send_open ho kind thread] at h ⊢
            simp only [List.mem_cons, reduceCtorEq, Effect.sent.injEq, List.not_mem_nil, false_or,
              or_false] at h
            obtain ⟨rfl, rfl, rfl⟩ := h
            exact ⟨kind, thread, rfl, hp, rfl, rfl, rfl, rfl⟩
        · simp at h
      | stopping => simp [onCommand] at h
      | terminate cause => simp [onCommand, sent_terminate] at h
    | resumeFailed epoch' error t =>
      simp only [onCommand] at h
      split at h <;> simp at h
    | configured =>
      simp only [onCommand] at h
      split at h <;> simp at h
    | exited e => exact absurd h (sent_terminate _ _ _)

end State
end Session

namespace Debugger

variable {ρ : Type}

/-! ### Any order of moves -/

/-- In move `n` the session sends the request `x` to let the program go on. It is the resume accepted at
`epoch`, whose outcome is waited for by `ticket`. -/
def Sends (d : Debugger ρ) (σ : Nat → Move ρ) (n : Nat) (x : Exchange) (epoch ticket : Nat) : Prop :=
  ∃ i, d.input? σ n = some i ∧
    .sent x epoch ticket ∈ ((d.session σ n).step (d.after σ n).link.connection i).effects

/-- From move `i` to before move `j` the session takes no event of the adapter and does not change its
state. -/
def Quiet (d : Debugger ρ) (σ : Nat → Move ρ) (i j : Nat) : Prop :=
  ∀ k, i ≤ k → k < j →
    (∀ e, d.input? σ k ≠ some (.event e)) ∧ d.entered? σ k = none

variable {d : Debugger ρ} {σ : Nat → Move ρ}

/-- The session takes an input as `State.step` says. -/
theorem session_step {n : Nat} {i : Input} (hi : d.input? σ n = some i) :
    σ n = .input i ∧ (d.session σ n).status.state ≠ .terminated ∧
    d.session σ (n + 1) = ((d.session σ n).step (d.after σ n).link.connection i).state := by
  obtain ⟨hm, ho, -⟩ := handles_move hi
  refine ⟨hm, ho, ?_⟩
  have hmove : d.after σ (n + 1) = (d.after σ n).takeInput i := by
    show (d.after σ n).move (σ n) = _
    rw [hm]
    exact if_neg ho
  show (d.after σ (n + 1)).room.state = _
  rw [hmove]
  exact (takeInput_keeps (d.after σ n) i).1

/-- What a resume does that is sent. -/
theorem Sends.leaves {n epoch ticket : Nat} {x : Exchange} (h : d.Sends σ n x epoch ticket) :
    (d.session σ n).status.state = .paused ∧
    d.session σ (n + 1) = (d.session σ n).enter .running false ∧
    epoch = (d.session σ (n + 1)).epoch := by
  obtain ⟨i, hi, hx⟩ := h
  obtain ⟨-, -, hstep⟩ := session_step hi
  obtain ⟨kind, thread, -, hp, -, -, hstate, he⟩ := State.sent_step hx
  exact ⟨hp, hstep.trans hstate, by rw [hstep]; exact he⟩

/-- In one move the epoch stays as it is or grows, and it stays just when nothing happens. -/
theorem epoch_succ (n : Nat) :
    (d.session σ n).epoch ≤ (d.session σ (n + 1)).epoch ∧
    ((d.session σ (n + 1)).epoch = (d.session σ n).epoch ↔ d.Quiet σ n (n + 1)) := by
  have hquiet : d.Quiet σ n (n + 1) ↔
      (∀ e, d.input? σ n ≠ some (.event e)) ∧ d.entered? σ n = none := by
    refine ⟨fun h => h n (Nat.le_refl n) (Nat.lt_succ_self n), fun h k hnk hkn => ?_⟩
    rwa [Nat.le_antisymm (Nat.le_of_lt_succ hkn) hnk]
  rw [hquiet]
  unfold entered?
  cases hi : d.input? σ n with
  | none =>
    have he : (d.session σ (n + 1)).epoch = (d.session σ n).epoch := (beside_move hi).epoch
    simp [he]
  | some i =>
    obtain ⟨-, -, es, hh, -, -⟩ := handles_move hi
    have he : (d.session σ (n + 1)).epoch = (d.session σ n).epoch + _ + _ := State.handles_epoch hh
    rw [he, Option.bind_some]
    cases (d.after σ n).room.state.entered? (d.after σ n).link.connection i with
    | none => cases i <;> simp [Input.isEvent]
    | some st => cases i <;> simp [Input.isEvent] <;> omega

theorem epoch_mono {i j : Nat} (hij : i ≤ j) : (d.session σ i).epoch ≤ (d.session σ j).epoch := by
  induction hij with
  | refl => exact Nat.le_refl _
  | @step j _ ih => exact Nat.le_trans ih (epoch_succ j).1

theorem Quiet.mono {i i' j j' : Nat} (h : d.Quiet σ i j) (hi : i ≤ i') (hj : j' ≤ j) :
    d.Quiet σ i' j' :=
  fun k hk hkj => h k (Nat.le_trans hi hk) (Nat.lt_of_lt_of_le hkj hj)

/-- **The epoch is the same exactly if nothing has happened in between.** -/
theorem epoch_eq_iff {i j : Nat} (hij : i ≤ j) :
    (d.session σ j).epoch = (d.session σ i).epoch ↔ d.Quiet σ i j := by
  induction hij with
  | refl => exact ⟨fun _ k hk hkj => absurd hkj (Nat.not_lt.mpr hk), fun _ => rfl⟩
  | @step j hij ih =>
    obtain ⟨hle, hiff⟩ := epoch_succ (d := d) (σ := σ) j
    have hmono : (d.session σ i).epoch ≤ (d.session σ j).epoch := epoch_mono hij
    constructor
    · intro h
      have hj : d.Quiet σ i j := ih.mp (Nat.le_antisymm (h ▸ hle) hmono)
      have hs : d.Quiet σ j (j + 1) := hiff.mp (Nat.le_antisymm (Nat.le_trans (Nat.le_of_eq h) hmono) hle)
      intro k hk hkj
      rcases Nat.lt_succ_iff_lt_or_eq.mp hkj with hlt | rfl
      · exact hj k hk hlt
      · exact hs k (Nat.le_refl k) (Nat.lt_succ_self k)
    · intro h
      have hj := ih.mpr (h.mono (Nat.le_refl i) (Nat.le_succ j))
      have hs := hiff.mpr (h.mono hij (Nat.le_refl (j + 1)))
      exact hs.trans hj

/-- Where nothing happens the status stays. -/
theorem Quiet.status {i j : Nat} (hij : i ≤ j) (h : d.Quiet σ i j) :
    (d.session σ j).status = (d.session σ i).status := by
  induction hij with
  | refl => rfl
  | @step j hij ih =>
    exact (session_stays (h j hij (Nat.lt_succ_self j)).2).trans
      (ih (h.mono (Nat.le_refl i) (Nat.le_succ j)))

/-- The failure of a resume is handled in a session that is running and in its epoch, or changes
nothing. -/
theorem resumeFailed_or {n epoch ticket : Nat} {error : DebugError}
    (hn : σ n = .input (.command (.resumeFailed epoch error ticket))) :
    (d.after σ (n + 1)).room.events = (d.after σ n).room.events ∧
    ((d.session σ n).status.state = .running ∧ epoch = (d.session σ n).epoch ∧
        d.session σ (n + 1) = (d.session σ n).enter .paused true ∨
      ¬ ((d.session σ n).status.state = .running ∧ epoch = (d.session σ n).epoch) ∧
        d.session σ (n + 1) = d.session σ n) := by
  by_cases ho : (d.after σ n).Over
  · have hsame : d.after σ (n + 1) = d.after σ n := by
      show (d.after σ n).move (σ n) = _
      rw [hn]
      exact if_pos ho
    refine ⟨by rw [hsame], Or.inr ⟨fun hr => ?_, congrArg (fun x => x.room.state) hsame⟩⟩
    exact RunState.noConfusion (hr.1.symm.trans ho)
  · have hi : d.input? σ n = some (.command (.resumeFailed epoch error ticket)) :=
      (if_neg ho).trans (by rw [hn]; rfl)
    obtain ⟨-, -, hstep⟩ := session_step hi
    obtain ⟨-, -, es, hh, hevents, -⟩ := handles_move hi
    refine ⟨?_, ?_⟩
    · have hsilent : emitted es = [] := State.silent_of_command hh rfl
      exact hevents.trans (by rw [hsilent, List.append_nil])
    · simp only [State.step, State.onCommand] at hstep
      split at hstep
      · next h => exact Or.inl ⟨h.2, h.1, hstep⟩
      · next h => exact Or.inr ⟨fun hr => h ⟨hr.2, hr.1⟩, hstep⟩

/-- A failure is handled in the state and in the epoch of its resume just if nothing has happened in
between. -/
theorem Sends.quiet_iff {m n epoch ticket : Nat} {x : Exchange} (hm : d.Sends σ m x epoch ticket)
    (hmn : m < n) :
    (d.session σ n).status.state = .running ∧ epoch = (d.session σ n).epoch ↔
      d.Quiet σ (m + 1) n := by
  obtain ⟨-, hleft, hepoch⟩ := hm.leaves
  have hiff := epoch_eq_iff (d := d) (σ := σ) (Nat.succ_le_of_lt hmn)
  rw [hepoch, eq_comm (a := (d.session σ (m + 1)).epoch), hiff]
  refine ⟨And.right, fun hq => ⟨?_, hq⟩⟩
  rw [hq.status (Nat.succ_le_of_lt hmn), hleft]
  rfl

/-- A resume in a pause is sent just if the connection is open. -/
theorem resumes_iff {n ticket : Nat} {kind : StepKind} {thread : Int}
    (hp : (d.session σ n).status.state = .paused)
    (hn : σ n = .input (.command (.order (.resume kind thread) ticket))) :
    d.Resumes σ n kind thread ↔ (d.after σ n).link.connection.isClosed = false := by
  refine ⟨fun h => h.paused.2.1, fun hc => ?_⟩
  have hgoing : ¬ (d.after σ n).Over := fun ho => RunState.noConfusion (hp.symm.trans ho)
  have hi : d.input? σ n = some (.command (.order (.resume kind thread) ticket)) :=
    (if_neg hgoing).trans (by rw [hn]; rfl)
  obtain ⟨-, -, es, hh, -, -⟩ := handles_move hi
  rcases State.handles_resumed hh with ⟨-, -, -, hconn⟩ | ⟨hnot, -⟩
  · exact ⟨⟨ticket, hn⟩, congrArg Connection.queue hconn⟩
  · exact absurd ⟨hp, hc⟩ hnot

/-- **A failed resume is undone exactly if nothing has happened since.** In every order of moves from the
beginning of a session on: let a resume be sent in move `m`, and its failure be given to the session in
move `n`. Nothing is reported. The session comes back into a pause just if it has taken no event and has
not changed its state since move `m`. Then its status is that of the pause that it had left in move `m`,
in a generation that has not been there before, and the next resume is sent if the connection is open.
Otherwise the session stays as it is. -/
theorem failed_resume_undone_iff (d : Debugger ρ) (id : SessionId) (attached : Bool)
    (σ : Nat → Move ρ) {m n epoch ticket : Nat} {x : Exchange} {error : DebugError}
    (hm : (d.fresh id attached).Sends σ m x epoch ticket) (hmn : m < n)
    (hn : σ n = .input (.command (.resumeFailed epoch error ticket))) :
    ((d.fresh id attached).after σ (n + 1)).room.events =
      ((d.fresh id attached).after σ n).room.events ∧
    (((d.fresh id attached).session σ n).status.state ≠ .paused ∧
        ((d.fresh id attached).session σ (n + 1)).status.state = .paused ↔
      (d.fresh id attached).Quiet σ (m + 1) n) ∧
    ((d.fresh id attached).Quiet σ (m + 1) n →
      (∃ g, ((d.fresh id attached).session σ (n + 1)).status =
          { ((d.fresh id attached).session σ m).status with generation := g } ∧
        ((d.fresh id attached).session σ (n + 1)).tree.generation = g ∧
        ∀ k ≤ n, ((d.fresh id attached).session σ k).status.generation.number < g.number) ∧
      ∀ j kind thread ticket', n < j → (d.fresh id attached).Quiet σ (n + 1) j →
        σ j = .input (.command (.order (.resume kind thread) ticket')) →
        ((d.fresh id attached).Resumes σ j kind thread ↔
          ((d.fresh id attached).after σ j).link.connection.isClosed = false)) ∧
    (¬ (d.fresh id attached).Quiet σ (m + 1) n →
      (d.fresh id attached).session σ (n + 1) = (d.fresh id attached).session σ n) := by
  have hl := lockstep_fresh d id attached
  generalize d.fresh id attached = d at *
  obtain ⟨hpaused, hleft, -⟩ := hm.leaves
  obtain ⟨hevents, hor⟩ := resumeFailed_or (d := d) hn
  rw [hm.quiet_iff hmn] at hor
  refine ⟨hevents, ⟨fun ⟨hbefore, hafter⟩ => ?_, fun hq => ?_⟩, fun hq => ?_, fun hq => ?_⟩
  · rcases hor with ⟨hrun, he, -⟩ | ⟨-, hsame⟩
    · exact (hm.quiet_iff hmn).mp ⟨hrun, he⟩
    · rw [hsame] at hafter
      exact absurd hafter hbefore
  · obtain ⟨hrun, -⟩ := (hm.quiet_iff hmn).mpr hq
    rcases hor with ⟨-, -, hback⟩ | ⟨hnot, -⟩
    · rw [hrun, hback]
      exact ⟨fun h => RunState.noConfusion h, rfl⟩
    · exact absurd hq hnot
  · rcases hor with ⟨-, -, hback⟩ | ⟨hnot, -⟩
    · have hstatus := hq.status (Nat.succ_le_of_lt hmn)
      have hgen := (lockstep_after (σ := σ) hl n).generation
      refine ⟨⟨(d.session σ n).tree.generation.next, ?_, ?_, fun k hk => ?_⟩, ?_⟩
      · rw [hback, State.enter_status, hstatus, hleft, State.enter_status, ← hpaused]
      · rw [hback]; rfl
      · rw [← hgen]
        exact Nat.lt_succ_of_le (session_mono hl hk).1
      · intro j kind thread ticket' hnj hqj hj
        refine resumes_iff ?_ hj
        rw [hqj.status (Nat.succ_le_of_lt hnj), hback]
        rfl
    · exact absurd hq hnot
  · rcases hor with ⟨hrun, he, -⟩ | ⟨-, hsame⟩
    · exact absurd ((hm.quiet_iff hmn).mp ⟨hrun, he⟩) hq
    · exact hsame

/-- A resume fails while a second one is turned down, and is undone; a third one fails after the program
has written something. -/
def twoFailures (n : Nat) : Move Unit :=
  [.input (stoppedAt 7), .input (.command (.order (.resume .continue 7) 0)),
    .input (.command (.order (.resume .next 7) 1)),
    .input (.command (.resumeFailed 3 (.adapterRejected "continue" "not now") 0)),
    .input (.command (.order (.resume .next 7) 2)), .input (.event ⟨0, "output", none⟩),
    .input (.command (.resumeFailed 5 (.timeout "next" ⟨5000⟩) 2))].getD n .read

theorem failed_resume_undone_iff_twoFailures :
    begun.Sends twoFailures 1 ⟨1, "continue", none⟩ 3 0 ∧
    (begun.session twoFailures 4).status = ⟨.paused, ⟨3⟩, some 7, some "breakpoint", none⟩ ∧
    begun.Resumes twoFailures 4 .next 7 ∧
    begun.Sends twoFailures 4 ⟨2, "next", none⟩ 5 2 ∧ ¬ begun.Quiet twoFailures 5 6 ∧
    begun.session twoFailures 7 = begun.session twoFailures 6 := by
  have h1 : begun.Sends twoFailures 1 ⟨1, "continue", none⟩ 3 0 :=
    ⟨_, rfl, .tail _ (.tail _ (.head _))⟩
  have h4 : begun.Sends twoFailures 4 ⟨2, "next", none⟩ 5 2 :=
    ⟨_, rfl, .tail _ (.tail _ (.head _))⟩
  have hquiet : begun.Quiet twoFailures 2 3 := by
    intro k hk hk3
    have hk2 : k = 2 := by omega
    subst hk2
    refine ⟨fun e he => ?_, rfl⟩
    cases he
  have hevent : ¬ begun.Quiet twoFailures 5 6 := fun h =>
    (h 5 (by decide) (by decide)).1 ⟨0, "output", none⟩ rfl
  obtain ⟨-, -, hback, -⟩ := failed_resume_undone_iff { link := .start ⟨5000⟩ } ⟨1⟩ true
    twoFailures h1 (show 1 < 3 by decide) rfl
  obtain ⟨-, -, -, hsame⟩ := failed_resume_undone_iff { link := .start ⟨5000⟩ } ⟨1⟩ true
    twoFailures h4 (show 4 < 6 by decide) rfl
  obtain ⟨⟨g, hstatus, hgen, -⟩, hagain⟩ := hback hquiet
  have hg : g = ⟨3⟩ := hgen.symm
  subst hg
  refine ⟨h1, hstatus, (hagain 4 .next 7 2 (by decide) ?_ rfl).mpr rfl, h4, hevent, hsame hevent⟩
  exact fun k hk hk4 => absurd hk (Nat.not_le.mpr hk4)

end Debugger
end DebugHost
