import DebugHost.Proofs.Debugger.Turns

/-! # What the parts of a session agree on

The status that is shown, the status that is kept, the generation of the tree and whether the tree can
be asked are changed in many places, and agree after every step (`Lockstep`). The generation counts how
often the session entered a state (`Debugger.entered?`), and the states come in the order of
`RunState.rank`. -/

namespace DebugHost

/-- How far a session has come in a state. -/
def RunState.rank : RunState → Nat
  | .launching => 0
  | .configuring => 1
  | .running => 2
  | .paused => 2
  | .terminated => 3

namespace Session

/-- The parts of a session agree. -/
structure Lockstep (s : State) : Prop where
  published : s.published = s.status
  generation : s.status.generation = s.tree.generation
  paused : s.tree.paused = true ↔ s.status.state = .paused
  closed : s.tree.closed = true ↔ s.status.state = .terminated
  termination : s.status.termination.isSome = true ↔ s.status.state = .terminated

/-- What neither touches the status nor advances the tree keeps the parts in step. -/
theorem Lockstep.keep {s s' : State} (h : Lockstep s) (hs : s'.status = s.status)
    (hp : s'.published = s.published) (ht : s.tree.Alike s'.tree) : Lockstep s' where
  published := by rw [hp, hs]; exact h.published
  generation := by rw [ht.generation, hs]; exact h.generation
  paused := by rw [ht.paused, hs]; exact h.paused
  closed := by rw [ht.closed, hs]; exact h.closed
  termination := by rw [hs]; exact h.termination

namespace State

/-! ### One step -/

theorem lockstep_enter {s : State} {st : RunState} (hst : st ≠ .terminated)
    (hc : s.tree.closed = false) (ht : s.status.termination = none) :
    Lockstep (s.enter st (st = .paused)) where
  published := rfl
  generation := rfl
  paused := decide_eq_true_iff
  closed := ⟨fun h => Bool.noConfusion (hc.symm.trans h), fun h => absurd h hst⟩
  termination := ⟨fun h => Bool.noConfusion ((congrArg Option.isSome ht).symm.trans h),
    fun h => absurd h hst⟩

theorem lockstep_finish (s : State) (cause : Termination) : Lockstep (s.finish cause) where
  published := rfl
  generation := rfl
  paused := ⟨fun h => Bool.noConfusion h, fun h => RunState.noConfusion h⟩
  closed := ⟨fun _ => rfl, fun _ => rfl⟩
  termination := ⟨fun _ => rfl, fun _ => rfl⟩

variable {s : State} {c : Connection} {i : Input} {o : Outcome}

/-- **The parts of a session agree after every input.** -/
theorem lockstep_handles (hl : Lockstep s) (hs : s.status.state ≠ .terminated)
    (h : Handles s c i o) : Lockstep o.state := by
  have hn := noted_note s i
  have hc : s.tree.closed = false := by
    cases hc : s.tree.closed with
    | false => rfl
    | true => exact absurd (hl.closed.mp hc) hs
  have ht : s.status.termination = none := by
    cases ht : s.status.termination with
    | none => rfl
    | some t => exact absurd (hl.termination.mp (by rw [ht]; rfl)) hs
  cases h with
  | stays hi hstate =>
    rw [hstate]
    exact hl.keep (note_status hi) hn.published (by rw [hn.tree]; exact .refl _)
  | enters st _ hst _ hstate =>
    rw [hstate]
    exact lockstep_enter hst (by rw [hn.tree]; exact hc) (by rw [hn.termination]; exact ht)
  | resumes kind thread ticket _ _ _ hstate =>
    rw [hstate]
    exact lockstep_enter (by decide) hc ht
  | ends cause _ _ hstate =>
    rw [hstate]
    exact lockstep_finish (s.note i) cause

/-- A session that enters a state is in it, in the next generation. -/
theorem handles_entered {st : RunState} (hl : Lockstep s) (h : Handles s c i o)
    (he : s.entered? c i = some st) :
    o.state.status.state = st ∧ o.state.status.generation = s.status.generation.next := by
  have hn := noted_note s i
  cases h with
  | stays hi => rw [hi] at he; cases he
  | enters st' hi _ _ hstate =>
    rw [hi] at he
    cases he
    refine ⟨by rw [hstate]; rfl, ?_⟩
    rw [hstate, hl.generation, ← hn.tree]
    rfl
  | resumes kind thread ticket hi hp ho hstate =>
    rw [hi] at he
    simp only [entered?, hp, ho] at he
    cases he
    refine ⟨by rw [hstate]; rfl, ?_⟩
    rw [hstate, hl.generation]
    rfl
  | ends cause hi _ hstate =>
    rw [hi] at he
    cases he
    refine ⟨by rw [hstate]; rfl, ?_⟩
    rw [hstate, hl.generation, ← hn.tree]
    rfl

/-- A session that enters none stays in its state and in its generation. -/
theorem handles_stays (h : Handles s c i o) (he : s.entered? c i = none) :
    o.state.status = s.status := by
  cases h with
  | stays hi hstate => rw [hstate]; exact note_status hi
  | enters st hi => rw [hi] at he; cases he
  | resumes kind thread ticket hi hp ho =>
    rw [hi] at he
    simp only [entered?, hp, ho] at he
    cases he
  | ends cause hi => rw [hi] at he; cases he

/-- The thread that stopped last. -/
theorem handles_activeThread (h : Handles s c i o) :
    o.state.status.activeThread = i.stoppedThread?.or s.status.activeThread := by
  cases h with
  | stays _ hstate => rw [hstate]; exact note_activeThread s i
  | enters _ _ _ _ hstate => rw [hstate]; exact note_activeThread s i
  | resumes kind thread ticket hi _ _ hstate => rw [hstate, hi]; rfl
  | ends _ _ _ hstate => rw [hstate]; exact note_activeThread s i

/-- Apart from the configuration after its launch, a session enters only states of the later ranks. -/
theorem entered_cases {st : RunState} (he : s.entered? c i = some st) :
    (s.status.state = .launching ∧ st = .configuring) ∨ 2 ≤ st.rank := by
  cases i with
  | event e =>
    simp only [entered?] at he
    split at he
    · split at he
      · next hl => cases he; exact Or.inl ⟨hl, rfl⟩
      · cases he
    · cases he; exact Or.inr (by decide)
    · split at he
      · cases he; exact Or.inr (by decide)
      · cases he
    · cases he; exact Or.inr (by decide)
    · cases he; exact Or.inr (by decide)
    · cases he
  | closed reason => cases he; exact Or.inr (by decide)
  | command cmd =>
    right
    cases cmd with
    | order o ticket =>
      cases o with
      | resume kind thread => simp only [entered?] at he; split at he <;> cases he; decide
      | stopping => cases he
      | terminate cause => cases he; decide
    | resumeFailed epoch error ticket => simp only [entered?] at he; split at he <;> cases he; decide
    | configured => simp only [entered?] at he; split at he <;> cases he; decide
    | exited e => cases he; decide

/-- The state that is entered is no earlier one. -/
theorem rank_entered {st : RunState} (hs : s.status.state ≠ .terminated)
    (he : s.entered? c i = some st) : s.status.state.rank ≤ st.rank := by
  rcases entered_cases he with ⟨hl, rfl⟩ | hst
  · rw [hl]; decide
  · refine Nat.le_trans ?_ hst
    cases hr : s.status.state with
    | terminated => exact absurd hr hs
    | _ => decide

end State

/-! ### Any order of moves -/

end Session

namespace Debugger

open DebugHost.Session

variable {ρ : Type} (d : Debugger ρ) (σ : Nat → Move ρ)

/-- The state that the session enters, or enters anew, in move `n`. -/
def entered? (n : Nat) : Option RunState :=
  (d.input? σ n).bind ((d.after σ n).room.state.entered? (d.after σ n).link.connection)

/-- The thread that the input of move `n` names as stopped. -/
def named? (n : Nat) : Option Int := (d.input? σ n).bind Input.stoppedThread?

variable {d σ}

theorem lockstep_after (h : Lockstep d.room.state) (n : Nat) : Lockstep (d.session σ n) := by
  induction n with
  | zero => exact h
  | succ n ih =>
    cases hi : d.input? σ n with
    | none =>
      have hb := beside_move hi
      exact ih.keep hb.status hb.published hb.tree
    | some i =>
      obtain ⟨-, hover, es, hh, -, -⟩ := handles_move hi
      exact State.lockstep_handles ih hover hh

theorem session_entered (h : Lockstep d.room.state) {n : Nat} {st : RunState}
    (he : d.entered? σ n = some st) :
    (d.session σ (n + 1)).status.state = st ∧
    (d.session σ (n + 1)).status.generation = (d.session σ n).status.generation.next ∧
    (d.session σ n).status.state.rank ≤ st.rank := by
  obtain ⟨i, hi, he⟩ := Option.bind_eq_some_iff.mp he
  obtain ⟨-, hover, es, hh, -, -⟩ := handles_move hi
  obtain ⟨hst, hg⟩ := State.handles_entered (lockstep_after h n) hh he
  exact ⟨hst, hg, State.rank_entered hover he⟩

theorem session_stays {n : Nat} (he : d.entered? σ n = none) :
    (d.session σ (n + 1)).status = (d.session σ n).status := by
  cases hi : d.input? σ n with
  | none => exact (beside_move hi).status
  | some i =>
    obtain ⟨-, -, es, hh, -, -⟩ := handles_move hi
    refine State.handles_stays hh ?_
    rw [entered?, hi] at he
    exact he

/-- One move raises the generation by one at most, and does not go back in the order of states. -/
theorem session_succ (h : Lockstep d.room.state) (n : Nat) :
    (d.session σ n).status.generation.number ≤ (d.session σ (n + 1)).status.generation.number ∧
    (d.session σ n).status.state.rank ≤ (d.session σ (n + 1)).status.state.rank := by
  cases he : d.entered? σ n with
  | none => rw [session_stays he]; exact ⟨Nat.le_refl _, Nat.le_refl _⟩
  | some st =>
    obtain ⟨hst, hg, hr⟩ := session_entered h he
    rw [hst, hg]
    exact ⟨Nat.le_succ _, hr⟩

theorem session_mono (h : Lockstep d.room.state) {i j : Nat} (hij : i ≤ j) :
    (d.session σ i).status.generation.number ≤ (d.session σ j).status.generation.number ∧
    (d.session σ i).status.state.rank ≤ (d.session σ j).status.state.rank := by
  induction hij with
  | refl => exact ⟨Nat.le_refl _, Nat.le_refl _⟩
  | @step j _ ih =>
    exact ⟨Nat.le_trans ih.1 (session_succ h j).1, Nat.le_trans ih.2 (session_succ h j).2⟩

theorem session_activeThread (h : d.room.state.status.activeThread = none) (n : Nat) :
    (d.session σ n).status.activeThread = ((List.range n).filterMap (d.named? σ)).getLast? := by
  induction n with
  | zero => exact h
  | succ n ih =>
    have hstep : (d.session σ (n + 1)).status.activeThread =
        (d.named? σ n).or (d.session σ n).status.activeThread := by
      cases hi : d.input? σ n with
      | none =>
        simp only [named?, hi]
        exact congrArg Status.activeThread (beside_move hi).status
      | some i =>
        obtain ⟨-, -, es, hh, -, -⟩ := handles_move hi
        simp only [named?, hi]
        exact State.handles_activeThread hh
    rw [hstep, ih, List.range_succ, List.filterMap_append]
    cases hn : d.named? σ n <;> simp [hn]

theorem lockstep_fresh (d : Debugger ρ) (id : SessionId) (attached : Bool) :
    Lockstep (d.fresh id attached).room.state where
  published := rfl
  generation := rfl
  paused := ⟨fun h => Bool.noConfusion h, fun h => RunState.noConfusion h⟩
  closed := ⟨fun h => Bool.noConfusion h, fun h => RunState.noConfusion h⟩
  termination := ⟨fun h => Bool.noConfusion h, fun h => RunState.noConfusion h⟩

/-- The parts of a session are in step in every run from its beginning on. -/
theorem lockstep_leads {d' : Debugger ρ} {id : SessionId} {attached : Bool}
    (h : (d.fresh id attached).Leads d') : Lockstep d'.room.state := by
  obtain ⟨σ, n, rfl⟩ := h.schedule .read
  exact lockstep_after (lockstep_fresh d id attached) n

/-- **The parts of a session stay in step.** In every order of moves from the beginning of a session on:
the status that is shown is the one that is kept; its generation is that of the tree, which is paused
just in the state `paused` and closed just in the state `terminated`; there is a cause just in the state
`terminated`; the active thread is the last one that an input named as stopped. A move in which the
session enters a state leads to that state and to the next generation, every other move leaves both as
they are, and neither the generation nor the state ever goes back. -/
theorem session_lockstep (d : Debugger ρ) (id : SessionId) (attached : Bool) (σ : Nat → Move ρ) :
    (∀ n, Lockstep ((d.fresh id attached).session σ n)) ∧
    (∀ n, ((d.fresh id attached).session σ n).status.activeThread =
      ((List.range n).filterMap ((d.fresh id attached).named? σ)).getLast?) ∧
    (∀ n st, (d.fresh id attached).entered? σ n = some st →
      ((d.fresh id attached).session σ (n + 1)).status.state = st ∧
      ((d.fresh id attached).session σ (n + 1)).status.generation =
        ((d.fresh id attached).session σ n).status.generation.next) ∧
    (∀ n, (d.fresh id attached).entered? σ n = none →
      ((d.fresh id attached).session σ (n + 1)).status =
        ((d.fresh id attached).session σ n).status) ∧
    (∀ i j, i ≤ j →
      ((d.fresh id attached).session σ i).status.generation.number ≤
        ((d.fresh id attached).session σ j).status.generation.number ∧
      ((d.fresh id attached).session σ i).status.state.rank ≤
        ((d.fresh id attached).session σ j).status.state.rank) := by
  have h := lockstep_fresh d id attached
  refine ⟨lockstep_after h, session_activeThread rfl, fun n st he => ?_, fun n he => session_stays he,
    fun i j hij => session_mono h hij⟩
  obtain ⟨hst, hg, -⟩ := session_entered h he
  exact ⟨hst, hg⟩

/-- A session that stops twice, once with no thread that could be read, and a resume in between. -/
def twoStops (n : Nat) : Move Unit :=
  [.input (.event ⟨0, "initialized", none⟩), .input (.command .configured), .input (stoppedAt 7),
    .act 1 (.order (.resume .next 7)), .input (.command (.order (.resume .next 7) 0)),
    .input (.event ⟨0, "stopped", some (.int 3)⟩), .input (.closed .eof),
    .input (stoppedAt 9)].getD n .read

theorem session_lockstep_twoStops :
    (begun.entered? twoStops 5 = some .paused ∧
      (begun.session twoStops 6).status.state = .paused ∧
      (begun.session twoStops 6).status.generation = ⟨5⟩) ∧
    (begun.entered? twoStops 3 = none ∧
      (begun.session twoStops 4).status = (begun.session twoStops 3).status) ∧
    (begun.session twoStops 8).status.activeThread = some 7 ∧
    (begun.session twoStops 3).status.state.rank ≤ (begun.session twoStops 8).status.state.rank := by
  obtain ⟨-, hthread, hentered, hstays, hmono⟩ :=
    session_lockstep { link := .start ⟨5000⟩ } ⟨1⟩ true twoStops
  have h5 : begun.entered? twoStops 5 = some .paused := rfl
  have h3 : begun.entered? twoStops 3 = none := rfl
  exact ⟨⟨h5, hentered 5 .paused h5⟩, ⟨h3, hstays 3 h3⟩, hthread 8, (hmono 3 8 (by decide)).2⟩

end Debugger
end DebugHost
